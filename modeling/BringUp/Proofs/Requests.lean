import BringUp.Proc

/-!
The calls of a run, and the states that they find.

* `Proc.requests h x s`: what the run of `x` asks of the environment `h`, each
  call with the state that it finds.
* `Handler.chain h calls s`: the calls in turn, each from the state that the one
  before it left, up to one that ends the run.
* `Handler.Leads h calls s t`: all of the calls are answered, and lead from `s`
  to `t`.
* `Proc.Asks x calls`: whatever `x` is answered, it asks for these calls and no
  others, and comes to a result.

Main statements: what asks for fixed calls asks for them in turn, on every
environment (`Proc.Asks.requests_eq`), and comes to a result if and only if
they are all answered (`Proc.Asks.leads`, `Proc.Asks.returns`).
-/

namespace BringUp

/-! ## Calls in turn -/

namespace Handler

variable {I : Interface} {σ : Type} (h : Handler I σ)

/-- Asks for the calls in turn, each from the state that the one before left.
A call that ends the run is the last one. -/
def chain : List I.Call → σ → List (σ × I.Call)
  | [], _ => []
  | c :: calls, s =>
      (s, c) :: match h.respond c s with
        | (.ok _, t) => chain calls t
        | (.error _, _) => []

/-- All of the calls are answered, one after the other, and lead from the one
state to the other. -/
def Leads : List I.Call → σ → σ → Prop
  | [], s, t => t = s
  | c :: calls, s, t => ∃ answer u, h.respond c s = (.ok answer, u) ∧ Leads calls u t

/-- The call is answered in every state. -/
def Answers (c : I.Call) : Prop :=
  ∀ s, ∃ answer t, h.respond c s = (.ok answer, t)

variable {h} {calls : List I.Call} {s t : σ}

theorem chain_isPrefix (calls : List I.Call) (s : σ) :
    (h.chain calls s).map Prod.snd <+: calls := by
  induction calls generalizing s with
  | nil => exact List.nil_prefix
  | cons c calls ih =>
      simp only [chain, List.map_cons, List.cons_prefix_cons, true_and]
      split
      · exact ih _
      · exact List.nil_prefix

/-- Calls that are all answered are all asked for. -/
theorem Leads.map_chain (hlead : h.Leads calls s t) :
    (h.chain calls s).map Prod.snd = calls := by
  induction calls generalizing s with
  | nil => rfl
  | cons c calls ih =>
      obtain ⟨answer, u, hc, hrest⟩ := hlead
      simp only [chain, hc, List.map_cons, ih hrest]

/-- What comes after answered calls finds the state that they lead to. -/
theorem Leads.chain_append (hlead : h.Leads calls s t) (others : List I.Call) :
    h.chain (calls ++ others) s = h.chain calls s ++ h.chain others t := by
  induction calls generalizing s with
  | nil =>
      obtain rfl : t = s := hlead
      rfl
  | cons c calls ih =>
      obtain ⟨answer, u, hc, hrest⟩ := hlead
      simp only [List.cons_append, chain, hc, ih hrest]

theorem leads_of_answers (hcalls : ∀ c ∈ calls, h.Answers c) (s : σ) :
    ∃ t, h.Leads calls s t := by
  induction calls generalizing s with
  | nil => exact ⟨s, rfl⟩
  | cons c calls ih =>
      obtain ⟨hc, hrest⟩ := List.forall_mem_cons.mp hcalls
      obtain ⟨answer, u, hanswer⟩ := hc s
      obtain ⟨t, ht⟩ := ih hrest u
      exact ⟨t, answer, u, hanswer, ht⟩

end Handler

/-! ## The calls of a run -/

namespace Proc

variable {I : Interface} {σ α β : Type} {h : Handler I σ} {s t : σ}

/-- The calls that a run makes, in their order, each with the state that it
finds. -/
def requests (h : Handler I σ) : Proc I α → σ → List (σ × I.Call)
  | done _, _ => []
  | stop _, _ => []
  | note _ rest, s => rest.requests h s
  | call c rest, s =>
      (s, c) :: match h.respond c s with
        | (.ok answer, t) => (rest answer).requests h t
        | (.error _, _) => []

/-- What every answered call keeps, every call of a run finds. -/
theorem forall_mem_requests {K : σ → Prop}
    (hstep : ∀ c u answer v, K u → h.respond c u = (.ok answer, v) → K v) (x : Proc I α)
    (hs : K s) : ∀ call ∈ x.requests h s, K call.1 := by
  induction x generalizing s with
  | done a => exact List.forall_mem_nil _
  | stop why => exact List.forall_mem_nil _
  | note record rest ih => exact ih hs
  | call c rest ih =>
      rw [requests, List.forall_mem_cons]
      refine ⟨hs, ?_⟩
      split
      · next answer t hc => exact ih answer (hstep c s answer t hs hc)
      · exact List.forall_mem_nil _

/-- A sequence that comes to a result has come through both of its parts. -/
theorem run_bind_ok {x : Proc I α} {f : α → Proc I β} {b : β} {log : List Log.Record}
    (hrun : (x >>= f).run h s = ⟨.ok b, t, log⟩) :
    ∃ a u first last, x.run h s = ⟨.ok a, u, first⟩ ∧ (f a).run h u = ⟨.ok b, t, last⟩ := by
  rw [run_bind] at hrun
  split at hrun
  · next a u first hx =>
    simp only [Run.mk.injEq] at hrun
    obtain ⟨hout, hstate, -⟩ := hrun
    exact ⟨a, u, first, _, hx, by rw [← hout, ← hstate]⟩
  · cases hrun

/-- A single call that comes to a result was answered with it. -/
theorem respond_of_run {c : I.Call} {answer : I.Answer c} {log : List Log.Record}
    (hrun : (request c).run h s = ⟨.ok answer, t, log⟩) : h.respond c s = (.ok answer, t) := by
  simp only [request, run] at hrun
  split at hrun
  · next found u hc =>
    cases hrun
    exact hc
  · cases hrun

/-- The procedure asks for exactly these calls, whatever it is answered, and
comes to a result. -/
inductive Asks : Proc I α → List I.Call → Prop
  | done (a : α) : Asks (done a) []
  | note (record : Log.Record) {rest : Proc I α} {calls : List I.Call} (hrest : Asks rest calls) :
      Asks (note record rest) calls
  | call (c : I.Call) {rest : I.Answer c → Proc I α} {calls : List I.Call}
      (hrest : ∀ answer, Asks (rest answer) calls) : Asks (call c rest) (c :: calls)

namespace Asks

variable {x : Proc I α} {f : α → Proc I β} {calls others : List I.Call}

theorem bind (hx : x.Asks calls) (hf : ∀ a, (f a).Asks others) :
    (x >>= f).Asks (calls ++ others) := by
  induction hx with
  | done a => exact hf a
  | note record _ ih => exact .note record ih
  | call c _ ih => exact .call c ih

/-- What asks for nothing may come first. -/
theorem after (hx : x.Asks []) (hf : ∀ a, (f a).Asks others) : (x >>= f).Asks others :=
  hx.bind hf

/-- What asks for one call may come before others. -/
theorem cons {c : I.Call} (hx : x.Asks [c]) (hf : ∀ a, (f a).Asks others) :
    (x >>= f).Asks (c :: others) :=
  hx.bind hf

/-- Repetition asks for the calls of each round in turn. -/
theorem each {ι : Type} {steps : List ι} {body : ι → Proc I Unit} {asked : ι → List I.Call}
    (hbody : ∀ i, (body i).Asks (asked i)) : (forM steps body).Asks (steps.flatMap asked) := by
  induction steps with
  | nil => exact .done ()
  | cons i steps ih =>
      rw [List.forM_cons, List.flatMap_cons]
      exact (hbody i).bind fun _ => ih

theorem request (c : I.Call) : (request c).Asks [c] :=
  .call c fun answer => .done answer

theorem log (level : Log.Level) (target message : String) :
    (Proc.log (I := I) level target message).Asks [] :=
  .note _ (.done ())

/-- On every environment the calls are asked for in turn. -/
theorem requests_eq (hx : x.Asks calls) (h : Handler I σ) (s : σ) :
    x.requests h s = h.chain calls s := by
  induction hx generalizing s with
  | done a => rfl
  | note record _ ih => exact ih s
  | call c _ ih =>
      simp only [requests, Handler.chain]
      split
      · next answer t hc => rw [ih answer t]
      · rfl

/-- If they are all answered, there is a result. -/
theorem returns (hx : x.Asks calls) (hlead : h.Leads calls s t) :
    ∃ a log, x.run h s = ⟨.ok a, t, log⟩ := by
  induction hx generalizing s with
  | done a =>
      obtain rfl : t = s := hlead
      exact ⟨a, [], rfl⟩
  | note record _ ih =>
      obtain ⟨a, log, hrun⟩ := ih hlead
      exact ⟨a, record :: log, by simp only [run, hrun]⟩
  | call c _ ih =>
      obtain ⟨answer, u, hc, hrest⟩ := hlead
      obtain ⟨a, log, hrun⟩ := ih answer hrest
      exact ⟨a, log, by simp only [run, hc, hrun]⟩

/-- If there is a result, they were all answered. -/
theorem leads (hx : x.Asks calls) {a : α} {log : List Log.Record}
    (hrun : x.run h s = ⟨.ok a, t, log⟩) : h.Leads calls s t := by
  induction hx generalizing s log with
  | done b =>
      cases hrun
      rfl
  | note record _ ih =>
      simp only [run, Run.mk.injEq] at hrun
      obtain ⟨hout, hstate, -⟩ := hrun
      exact ih (by rw [← hout, ← hstate])
  | call c _ ih =>
      simp only [run] at hrun
      split at hrun
      · next answer u hc => exact ⟨answer, u, hc, ih answer hrun⟩
      · cases hrun

/-- What asks for nothing leaves the state alone. -/
theorem state_eq (hx : x.Asks []) {a : α} {log : List Log.Record}
    (hrun : x.run h s = ⟨.ok a, t, log⟩) : t = s :=
  hx.leads hrun

/-- What comes after something that asks for nothing starts where that did. -/
theorem run_after (hx : x.Asks []) {b : β} {log : List Log.Record}
    (hrun : (x >>= f).run h s = ⟨.ok b, t, log⟩) :
    ∃ a last, (f a).run h s = ⟨.ok b, t, last⟩ := by
  obtain ⟨a, u, _, last, hfirst, hlast⟩ := run_bind_ok hrun
  rw [hx.state_eq hfirst] at hlast
  exact ⟨a, last, hlast⟩

end Asks

end Proc

end BringUp
