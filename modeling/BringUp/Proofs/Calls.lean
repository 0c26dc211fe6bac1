import BringUp.Proofs.Ensures

/-!
The calls that a driver can make, whatever it is answered.

* `Access.single`: the access that an event of a call shows. A poll and a wait
  are reads, as often as it takes.
* `Proc.CallsOnly ok x`: every access that the driver `x` can make, on any path
  through its tree, is one that `ok` allows.
* `Device.Keeps d ok I`: the accesses that `ok` allows keep the invariant `I`.

Main statements: a run only has events of allowed accesses
(`Proc.CallsOnly.access_of_mem`), and it keeps what they keep, at every event
and to its end (`Proc.CallsOnly.keeps`). So what every access keeps may be
added to what a run ensures (`Ensures.keeping`), and what the allowed ones keep
to what is ensured of a run that makes no others (`Ensures.within`).

Nothing here depends on the device, or on whether the driver comes to a result.
-/

namespace BringUp

/-- The access that an event of this call shows. -/
def Access.single : Access → Access
  | .poll r _ _ => .read r
  | .await r _ => .read r
  | access => access

namespace Device

variable {σ : Type} {d : Device σ} {patience : Nat}

/-- Single accesses that are allowed keep the invariant. -/
structure Keeps (d : Device σ) (ok : Access → Bool) (I : σ → Prop) : Prop where
  read : ∀ r s, ok (.read r) = true → I s → I (d.read r s).2
  write : ∀ r v s, ok (.write r v) = true → I s → I (d.write r v s)
  storeVector : ∀ slot entry s, ok (.storeVector slot entry) = true → I s →
    I (d.storeVector slot entry s)

theorem access_of_mem_pollHistory {r : Register} {accept : Word → Bool} {budget : Nat} {s : σ}
    {e : Event σ} (h : e ∈ d.pollHistory r accept budget s) : e.access = .read r := by
  induction budget generalizing s with
  | zero => cases h
  | succ budget ih =>
      simp only [pollHistory, List.mem_cons] at h
      rcases h with rfl | h
      · rfl
      · split at h
        · cases h
        · exact ih h

/-- Every event of a call shows the call's access. -/
theorem access_of_mem_history {c : Access} {s : σ} {e : Event σ}
    (h : e ∈ d.history patience c s) : e.access = c.single := by
  cases c with
  | poll r accept budget => exact access_of_mem_pollHistory h
  | await r accept => exact access_of_mem_pollHistory h
  | read r | write r v | loadVector table slot | storeVector slot entry =>
      rw [List.mem_singleton.mp h]
      rfl

/-- The event of a write shows what the device made of it. -/
theorem after_of_mem_history {c : Access} {s : σ} {e : Event σ} (h : e ∈ d.history patience c s)
    {r : Register} {v : Word} (hwrite : e.access = .write r v) :
    e.after = d.write r v e.before := by
  have hsingle := access_of_mem_history h
  rw [hwrite] at hsingle
  cases c with
  | write r' v' =>
      cases hsingle
      rw [List.mem_singleton.mp h]
      rfl
  | read r' | poll r' accept budget | await r' accept | loadVector table slot
  | storeVector slot entry => cases hsingle

namespace Keeps

variable {ok : Access → Bool} {I : σ → Prop}

/-- The reads of a poll keep the invariant, one after the other. -/
theorem poll (hd : d.Keeps ok I) {r : Register} (hr : ok (.read r) = true)
    (accept : Word → Bool) (budget : Nat) {s : σ} (hs : I s) :
    (∀ e ∈ d.pollHistory r accept budget s, I e.before ∧ I e.after) ∧
      I (d.poll r accept budget s).2 := by
  induction budget generalizing s with
  | zero => exact ⟨List.forall_mem_nil _, hs⟩
  | succ budget ih =>
      have hnext := hd.read r s hr hs
      simp only [pollHistory, Device.poll, List.forall_mem_cons]
      split
      · exact ⟨⟨⟨hs, hnext⟩, List.forall_mem_nil _⟩, hnext⟩
      · obtain ⟨hevents, hend⟩ := ih hnext
        exact ⟨⟨⟨hs, hnext⟩, hevents⟩, hend⟩

/-- An allowed call keeps the invariant. -/
theorem respond (hd : d.Keeps ok I) (patience : Nat) {c : Access} (hc : ok c.single = true)
    {s : σ} (hs : I s) :
    (∀ e ∈ d.history patience c s, I e.before ∧ I e.after) ∧
      I ((d.handler patience).respond c s).2 := by
  cases c with
  | read r => exact ⟨List.forall_mem_singleton.mpr ⟨hs, hd.read r s hc hs⟩, hd.read r s hc hs⟩
  | write r v =>
      exact ⟨List.forall_mem_singleton.mpr ⟨hs, hd.write r v s hc hs⟩, hd.write r v s hc hs⟩
  | poll r accept budget => exact hd.poll hc accept budget hs
  | await r accept =>
      obtain ⟨hevents, hend⟩ := hd.poll hc accept patience hs
      refine ⟨hevents, ?_⟩
      simp only [handler]
      cases hp : d.poll r accept patience s with
      | mk accepted t =>
          rw [hp] at hend
          cases accepted <;> exact hend
  | loadVector table slot => exact ⟨List.forall_mem_singleton.mpr ⟨hs, hs⟩, hs⟩
  | storeVector slot entry =>
      have hnext := hd.storeVector slot entry s hc hs
      exact ⟨List.forall_mem_singleton.mpr ⟨hs, hnext⟩, hnext⟩

end Keeps

end Device

namespace Proc

theorem after_of_mem_history {σ α : Type} {d : Device σ} {patience : Nat} {x : Driver α} {s : σ}
    {e : Event σ} (h : e ∈ x.history d patience s) {r : Register} {v : Word}
    (hwrite : e.access = .write r v) : e.after = d.write r v e.before := by
  induction x generalizing s with
  | done a => cases h
  | stop why => cases h
  | note record rest ih => exact ih h
  | call c rest ih =>
      simp only [history, List.mem_append] at h
      rcases h with h | h
      · exact Device.after_of_mem_history h hwrite
      · split at h
        · exact ih _ h
        · cases h

/-- Every access that the driver can make is allowed. -/
def CallsOnly {α : Type} (ok : Access → Bool) : Driver α → Prop
  | done _ => True
  | stop _ => True
  | note _ rest => rest.CallsOnly ok
  | call c rest => ok (Access.single c) = true ∧ ∀ answer, (rest answer).CallsOnly ok

namespace CallsOnly

variable {α β : Type} {ok ok' : Access → Bool}

theorem mono {x : Driver α} (hx : x.CallsOnly ok) (h : ∀ c, ok c = true → ok' c = true) :
    x.CallsOnly ok' := by
  induction x with
  | done a => trivial
  | stop why => trivial
  | note record rest ih => exact ih hx
  | call c rest ih => exact ⟨h _ hx.1, fun answer => ih answer (hx.2 answer)⟩

/-- Without a restriction, every driver keeps to it. -/
theorem all (x : Driver α) : x.CallsOnly fun _ => true := by
  induction x with
  | done a => trivial
  | stop why => trivial
  | note record rest ih => exact ih
  | call c rest ih => exact ⟨rfl, ih⟩

/-! ## Rules, one for each way to build a driver -/

theorem bind {x : Driver α} {f : α → Driver β} (hx : x.CallsOnly ok)
    (hf : ∀ a, (f a).CallsOnly ok) : (x >>= f).CallsOnly ok := by
  show (x.bind f).CallsOnly ok
  induction x with
  | done a => exact hf a
  | stop why => trivial
  | note record rest ih => exact ih hx
  | call c rest ih => exact ⟨hx.1, fun answer => ih answer (hx.2 answer)⟩

theorem log (level : Log.Level) (target message : String) :
    (Driver.log level target message).CallsOnly ok :=
  trivial

/-- What cannot be computed is a fault, and no access. -/
theorem ofExcept (x : Except Fault α) : (Proc.ofExcept x : Driver α).CallsOnly ok := by
  cases x <;> trivial

theorem request {c : Access} (h : ok c.single = true) :
    (Proc.request (I := bus) c).CallsOnly ok :=
  ⟨h, fun _ => trivial⟩

theorem read {r : Register} (h : ok (.read r) = true) : (Driver.read r).CallsOnly ok :=
  request h

theorem write {r : Register} (v : Word) (h : ok (.write r v) = true) :
    (Driver.write r v).CallsOnly ok :=
  request h

theorem modify {r : Register} {f : Word → Word} (hread : ok (.read r) = true)
    (hwrite : ∀ v, ok (.write r v) = true) : (Driver.modify r f).CallsOnly ok :=
  bind (read hread) fun _ => write _ (hwrite _)

theorem isSet {r : Register} (mask : Word) (h : ok (.read r) = true) :
    (Driver.isSet r mask).CallsOnly ok :=
  bind (read h) fun _ => trivial

theorem readField {r : Register} (f : Field) (h : ok (.read r) = true) :
    (Driver.readField r f).CallsOnly ok :=
  bind (read h) fun _ => trivial

theorem forM {ι : Type} {body : ι → Driver Unit} (h : ∀ i, (body i).CallsOnly ok)
    (xs : List ι) : (xs.forM body).CallsOnly ok := by
  induction xs with
  | nil => trivial
  | cons i xs ih => exact bind (h i) fun _ => ih

theorem lift {x : Driver α} (hx : x.CallsOnly ok) : (liftM x : Setup α).run.CallsOnly ok :=
  bind hx fun _ => trivial

theorem throw (e : SetupError) : (MonadExcept.throw e : Setup α).run.CallsOnly ok :=
  trivial

theorem setupPure (a : α) : (Pure.pure a : Setup α).run.CallsOnly ok :=
  trivial

theorem setupBind {x : Setup α} {f : α → Setup β} (hx : x.run.CallsOnly ok)
    (hf : ∀ a, (f a).run.CallsOnly ok) : (x >>= f).run.CallsOnly ok := by
  refine bind hx fun result => ?_
  cases result with
  | ok a => exact hf a
  | error e => trivial

theorem optionally {c : Bool} {x : Setup Unit} (hx : x.run.CallsOnly ok) :
    (BringUp.optionally c x).run.CallsOnly ok := by
  cases c with
  | true => exact hx
  | false => trivial

theorem optionallyDriver {c : Bool} {x : Driver Unit} (hx : x.CallsOnly ok) :
    (BringUp.optionally c x).CallsOnly ok := by
  cases c with
  | true => exact hx
  | false => trivial

theorem waitUntil {r : Register} (accept : Word → Bool) (flag : ReadyFlag) (budget : Nat)
    (h : ok (.read r) = true) : (Setup.waitUntil r accept flag budget).run.CallsOnly ok := by
  refine setupBind (lift (request h)) fun accepted => ?_
  cases accepted with
  | true => exact setupPure ()
  | false => exact throw _

/-- A register is changed, and then one of its flags is waited for. -/
theorem modifyThenWait {r : Register} {f : Word → Word} (accept : Word → Bool) (flag : ReadyFlag)
    (budget : Nat) (hread : ok (.read r) = true) (hwrite : ∀ v, ok (.write r v) = true) :
    (do
      Driver.modify r f
      Setup.waitUntil r accept flag budget : Setup Unit).run.CallsOnly ok :=
  setupBind (lift (modify hread hwrite)) fun _ => waitUntil accept flag budget hread

/-! ## Runs -/

variable {σ : Type} {d : Device σ} {patience : Nat}

/-- A run has events of allowed accesses only. -/
theorem access_of_mem {x : Driver α} (hx : x.CallsOnly ok) {s : σ} {e : Event σ}
    (he : e ∈ x.history d patience s) : ok e.access = true := by
  induction x generalizing s with
  | done a => cases he
  | stop why => cases he
  | note record rest ih => exact ih hx he
  | call c rest ih =>
      simp only [history, List.mem_append] at he
      rcases he with he | he
      · rw [Device.access_of_mem_history he]
        exact hx.1
      · split at he
        · exact ih _ (hx.2 _) he
        · cases he

/-- A run of allowed accesses keeps what they keep. -/
theorem keeps {x : Driver α} (hx : x.CallsOnly ok) {I : σ → Prop} (hd : d.Keeps ok I) {s : σ}
    (hs : I s) :
    (∀ e ∈ x.history d patience s, I e.before ∧ I e.after) ∧
      I (x.run (d.handler patience) s).state := by
  induction x generalizing s with
  | done a => exact ⟨List.forall_mem_nil _, hs⟩
  | stop why => exact ⟨List.forall_mem_nil _, hs⟩
  | note record rest ih => exact ih hx hs
  | call c rest ih =>
      obtain ⟨hevents, hnext⟩ := hd.respond patience hx.1 hs
      simp only [history, run, List.forall_mem_append]
      split
      · next answer t hr =>
        rw [hr] at hnext ⊢
        obtain ⟨hrest, hend⟩ := ih answer (hx.2 answer) hnext
        exact ⟨⟨hevents, hrest⟩, hend⟩
      · next why t hr =>
        rw [hr] at hnext ⊢
        exact ⟨⟨hevents, List.forall_mem_nil _⟩, hnext⟩

end CallsOnly

end Proc

/-- What every access keeps holds after every run. -/
theorem Ensures.keeping {σ α : Type} {d : Device σ} {patience : Nat} {G : Event σ → Prop}
    {I : σ → Prop} (hd : d.Keeps (fun _ => true) I) {x : Driver α} {s : σ} (hs : I s)
    {Q : α → σ → Prop} (hx : Ensures d patience G x s Q) :
    Ensures d patience G x s (fun a u => I u ∧ Q a u) := by
  obtain ⟨hG, a, u, log, hrun, hQ⟩ := hx
  obtain ⟨-, hend⟩ : (∀ e ∈ x.history d patience s, I e.before ∧ I e.after) ∧
      I (x.run (d.handler patience) s).state := (Proc.CallsOnly.all x).keeps hd hs
  rw [hrun] at hend
  exact ⟨hG, a, u, log, hrun, hend, hQ⟩

/-- A driver that only makes allowed accesses keeps what they keep, on the way
and to its end. -/
theorem Ensures.within {σ α : Type} {d : Device σ} {patience : Nat} {G : Event σ → Prop}
    {ok : Access → Bool} {I : σ → Prop} (hd : d.Keeps ok I) {x : Driver α}
    (hx : x.CallsOnly ok) {s : σ} (hs : I s) {Q : α → σ → Prop}
    (h : Ensures d patience G x s Q) :
    Ensures d patience (fun e => ok e.access = true ∧ I e.after) x s
      (fun a u => I u ∧ Q a u) := by
  obtain ⟨-, a, u, log, hrun, hQ⟩ := h
  obtain ⟨hevents, hend⟩ : (∀ e ∈ x.history d patience s, I e.before ∧ I e.after) ∧
      I (x.run (d.handler patience) s).state := hx.keeps hd hs
  rw [hrun] at hend
  exact ⟨fun e he => ⟨hx.access_of_mem he, (hevents e he).2⟩, a, u, log, hrun, hend, hQ⟩

end BringUp
