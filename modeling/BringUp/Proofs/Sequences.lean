import BringUp.Hardware.Services
import BringUp.Board.BringUp
import BringUp.Proofs.Ensures
import BringUp.Proofs.Requests

/-!
Board sequences on the registers.

* `Ensures.seqBind`, `Ensures.ask`, `Ensures.clockStep`: rules for sequences
  whose services are carried out by their drivers.
* `provided`: the device as the environment that provides the services.
* `afterReset`: the bring-up from the end of the clock reset on.

Main statements: the events of a sequence are those of the services that it asks
for (`onRegisters_forall_iff`); a plan that runs the core at the board's frequency is brought
up in two parts, the reset and the rest (`bringUp_eq`), the events of the one
come before those of the other (`bringUp_history`), and the rest is what its
five steps are (`Ensures.afterReset`).
-/

namespace BringUp

open Board Clock Hardware

/-! ## Interpretation -/

/-- A sequence is interpreted part by part. -/
theorem Proc.interpret_bind {I J : Interface} {α β : Type}
    (g : (c : I.Call) → Proc J (I.Answer c)) (x : Proc I α) (f : α → Proc I β) :
    (x >>= f).interpret g = x.interpret g >>= fun a => (f a).interpret g := by
  show (x.bind f).interpret g = (x.interpret g).bind fun a => (f a).interpret g
  induction x with
  | done a => rfl
  | stop why => rfl
  | note record rest ih =>
      show Proc.note record ((rest.bind f).interpret g) = _
      rw [ih]
      rfl
  | call c rest ih =>
      show ((g c).bind fun answer => ((rest answer).bind f).interpret g) =
        ((g c).bind fun answer => (rest answer).interpret g).bind
          fun a => (f a).interpret g
      rw [Proc.bind_bind]
      congr 1
      funext answer
      exact ih answer

theorem onRegisters_bind {α β : Type} (ceiling : Log.Ceiling) (x : Sequence α)
    (f : α → Sequence β) :
    onRegisters ceiling (x >>= f) =
      onRegisters ceiling x >>= fun a => onRegisters ceiling (f a) :=
  Proc.interpret_bind _ x f

/-- To ask for a service is to run its driver. -/
theorem onRegisters_ask (ceiling : Log.Ceiling) (service : Service) :
    onRegisters ceiling (Sequence.ask service) = provide ceiling service :=
  Proc.bind_done _

/-- The device as an environment for sequences: each service is carried out by
its driver. -/
def provided {σ : Type} (d : Device σ) (patience : Nat) (ceiling : Log.Ceiling) :
    Handler services σ where
  respond service s :=
    let r := (provide ceiling service).run (d.handler patience) s
    (r.outcome, r.state)

/-- A service that is answered was carried out. -/
theorem run_of_respond {σ : Type} {d : Device σ} {patience : Nat} {ceiling : Log.Ceiling}
    {service : Service} {answer : service.Answer} {s t : σ}
    (h : (provided d patience ceiling).respond service s = (.ok answer, t)) :
    ∃ log, (provide ceiling service).run (d.handler patience) s = ⟨.ok answer, t, log⟩ := by
  obtain ⟨houtcome, hstate⟩ := Prod.mk.inj h
  exact ⟨_, by rw [← houtcome, ← hstate]⟩

/-- What holds of the events of the services that a sequence asks for holds of
those of the sequence. -/
theorem onRegisters_forall_iff {σ α : Type} {d : Device σ} {patience : Nat}
    {ceiling : Log.Ceiling} {G : Event σ → Prop} (x : Sequence α) (s : σ) :
    (∀ e ∈ (onRegisters ceiling x).history d patience s, G e) ↔
      ∀ call ∈ x.requests (provided d patience ceiling) s,
        ∀ e ∈ (provide ceiling call.2).history d patience call.1, G e := by
  induction x generalizing s with
  | done a => exact iff_of_true (List.forall_mem_nil _) (List.forall_mem_nil _)
  | stop why => exact iff_of_true (List.forall_mem_nil _) (List.forall_mem_nil _)
  | note record rest ih => exact ih s
  | call service rest ih =>
      have hparts : onRegisters ceiling (Proc.call service rest) =
          provide ceiling service >>= fun answer => onRegisters ceiling (rest answer) := rfl
      rw [hparts, Proc.forall_mem_history_bind, Proc.requests, List.forall_mem_cons]
      refine and_congr_right fun _ => ?_
      have hrespond : (provided d patience ceiling).respond service s =
          (((provide ceiling service).run (d.handler patience) s).outcome,
            ((provide ceiling service).run (d.handler patience) s).state) := rfl
      rw [hrespond]
      cases (provide ceiling service).run (d.handler patience) s with
      | mk outcome t log =>
          cases outcome with
          | ok answer =>
              refine Iff.trans ⟨fun h => h answer t log rfl, fun h answer' t' log' hsame => ?_⟩
                (ih answer t)
              cases hsame
              exact h
          | error why => exact iff_of_true (fun _ _ _ h => by cases h) (List.forall_mem_nil _)

namespace Ensures

variable {σ α β : Type} {d : Device σ} {patience : Nat} {G : Event σ → Prop} {s : σ}
  {ceiling : Log.Ceiling}

theorem seqBind {x : Sequence α} {f : α → Sequence β} {R : α → σ → Prop} {Q : β → σ → Prop}
    (hx : Ensures d patience G (onRegisters ceiling x) s R)
    (hf : ∀ a t, R a t → Ensures d patience G (onRegisters ceiling (f a)) t Q) :
    Ensures d patience G (onRegisters ceiling (x >>= f)) s Q := by
  rw [onRegisters_bind]
  exact bind hx hf

theorem ask {service : Service} {Q : service.Answer → σ → Prop}
    (h : Ensures d patience G (provide ceiling service) s Q) :
    Ensures d patience G (onRegisters ceiling (Sequence.ask service)) s Q := by
  rw [onRegisters_ask]
  exact h

/-! ## Records leave the part alone -/

theorem seqLog (level : Log.Level) (target message : String) :
    Ensures d patience G (onRegisters ceiling (Sequence.log level target message)) s
      (fun _ t => t = s) :=
  note (done rfl)

theorem logLimits (limits : Except Violation Unit) :
    Ensures d patience G (onRegisters ceiling (Report.logLimits limits)) s
      (fun _ t => t = s) := by
  unfold Report.logLimits
  split
  · exact done rfl
  · exact seqLog _ _ _

theorem logFailure (heading : String) (result : SetupResult) :
    Ensures d patience G (onRegisters ceiling (Report.logFailure heading result)) s
      (fun _ t => t = s) := by
  unfold Report.logFailure
  split
  · exact done rfl
  · exact seqLog _ _ _

theorem logOutcome (report : Report) (rates : Rates) :
    Ensures d patience G (onRegisters ceiling (Board.logOutcome report rates)) s
      (fun _ t => t = s) := by
  unfold Board.logOutcome
  split <;> exact seqLog _ _ _

/-- A clock step is its service with records around it. -/
theorem clockStep {announcement heading : String} {service : Sequence SetupResult}
    {Q : SetupResult → σ → Prop}
    (h : Ensures d patience G (onRegisters ceiling service) s Q) :
    Ensures d patience G (onRegisters ceiling (Board.clockStep announcement heading service))
      s Q := by
  unfold Board.clockStep
  refine seqBind (seqLog _ _ _) ?_
  rintro _ t rfl
  refine seqBind h ?_
  intro result u hu
  refine seqBind (logFailure _ _) ?_
  rintro _ v rfl
  exact done hu

end Ensures

/-! ## The bring-up after the reset -/

/-- The bring-up from the end of the clock reset on. -/
def afterReset (plan : Plan) : Sequence Platform := do
  let initialise ← Sequence.ask .initialise
  Report.logFailure "HAL init" initialise
  Sequence.ask .stubVectors
  let oscillators ← clockStep "configuring oscillators" "oscillator configuration"
    (Sequence.ask (.configureOscillators plan.oscillators))
  let busClocks ← clockStep "configuring bus clocks" "bus clock configuration"
    (Sequence.ask (.configureBusClocks plan.buses))
  let peripheralClocks ← clockStep "configuring peripheral clocks"
    "peripheral clock configuration"
    (Sequence.ask (.configurePeripheralClocks plan.peripherals))
  let report : Report :=
    { limits := plan.check.map fun _ => (), initialise, oscillators, busClocks,
      peripheralClocks }
  logOutcome report plan.rates
  return { rates := plan.rates, report }

/-- Without the board's core frequency there is no bring-up. -/
theorem bringUp_of_ne {plan : Plan} (h : plan.rates.sysclk ≠ coreHz) :
    bringUp plan = Proc.fault (.wrongCoreClock plan.rates.sysclk coreHz) := by
  unfold bringUp
  rw [plan.evaluate_eq_ok]
  show (if plan.rates.sysclk ≠ coreHz then _ else _) = _
  rw [if_pos h]

/-- A plan with the board's core frequency is brought up: the clocks are reset,
and the rest follows. -/
theorem bringUp_eq {plan : Plan} (h : plan.rates.sysclk = coreHz) :
    bringUp plan = Report.logLimits (plan.check.map fun _ => ()) >>= fun _ =>
      Sequence.ask .resetClocks >>= fun _ => afterReset plan := by
  unfold bringUp
  rw [plan.evaluate_eq_ok]
  show (if plan.rates.sysclk ≠ coreHz then _ else _) = _
  rw [if_neg (not_not_intro h)]
  unfold runSteps afterReset
  simp only [bind_assoc]
  rfl

variable {σ : Type} {d : Device σ} {patience : Nat} {G : Event σ → Prop} {s : σ}
  {ceiling : Log.Ceiling}

/-- What the five steps after the reset come to, one after the other. The
clock steps result in successes or errors, and the next one runs either way. -/
theorem Ensures.afterReset {plan : Plan} {A B : σ → Prop} {C : SetupResult → σ → Prop}
    {D : SetupResult → SetupResult → σ → Prop} {Q : Platform → σ → Prop}
    (hinit : Ensures d patience G (Hardware.initialise ceiling) s (fun _ => A))
    (hstubs : ∀ t, A t → Ensures d patience G SystemControl.installStubs t (fun _ => B))
    (hosc : ∀ t, B t →
      Ensures d patience G (configureOscillators plan.oscillators).run t C)
    (hbus : ∀ r t, C r t →
      Ensures d patience G (configureBusClocks plan.buses).run t (D r))
    (hper : ∀ r r' t, D r r' t →
      Ensures d patience G (configurePeripheralClocks plan.peripherals).run t
        (fun r'' u => ∀ platform : Platform, platform.rates = plan.rates →
          platform.report.oscillators = r → platform.report.busClocks = r' →
          platform.report.peripheralClocks = r'' → Q platform u)) :
    Ensures d patience G (onRegisters ceiling (BringUp.afterReset plan)) s Q := by
  unfold BringUp.afterReset
  refine seqBind (ask hinit) fun initialise t1 h1 => ?_
  refine seqBind (logFailure _ _) ?_
  rintro _ t1 rfl
  refine seqBind (ask (hstubs _ h1)) fun _ t2 h2 => ?_
  refine seqBind (clockStep (ask (hosc _ h2))) fun oscillators t3 h3 => ?_
  refine seqBind (clockStep (ask (hbus _ _ h3))) fun busClocks t4 h4 => ?_
  refine seqBind (clockStep (ask (hper _ _ _ h4))) fun peripheralClocks t5 h5 => ?_
  refine seqBind (logOutcome _ _) ?_
  rintro _ t5 rfl
  exact done (h5 _ rfl rfl rfl rfl)

/-- The whole bring-up: the reset, then what follows from where it ended. -/
theorem Ensures.bringUp {plan : Plan} (h : plan.rates.sysclk = coreHz) {R : σ → Prop}
    {Q : Platform → σ → Prop} (hreset : Ensures d patience G resetPart s (fun _ => R))
    (hafter : ∀ t, R t → Ensures d patience G (onRegisters ceiling (BringUp.afterReset plan)) t Q) :
    Ensures d patience G (onRegisters ceiling (Board.bringUp plan)) s Q := by
  rw [bringUp_eq h]
  refine seqBind (logLimits _) ?_
  rintro _ _ rfl
  exact seqBind (ask hreset) fun _ t ht => hafter t ht

/-- The events of the reset come first, and then those of the rest. -/
theorem bringUp_history {plan : Plan} (h : plan.rates.sysclk = coreHz) {t : σ}
    {log : List Log.Record} (hreset : resetPart.run (d.handler patience) s = ⟨.ok (), t, log⟩) :
    (onRegisters ceiling (bringUp plan)).history d patience s =
      resetPart.history d patience s ++
        (onRegisters ceiling (afterReset plan)).history d patience t := by
  have hsilent : Ensures d patience (fun _ => False)
      (onRegisters ceiling (Report.logLimits (plan.check.map fun _ => ()))) s
      (fun _ t => t = s) := .logLimits _
  obtain ⟨hevents, _, u, log', hrun, rfl⟩ := hsilent
  have hnone := List.eq_nil_iff_forall_not_mem.mpr hevents
  rw [bringUp_eq h, onRegisters_bind, Proc.history_bind_of_run hrun, hnone, List.nil_append,
    onRegisters_bind, onRegisters_ask]
  exact Proc.history_bind_of_run hreset

end BringUp
