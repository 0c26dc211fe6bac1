import BringUp.Board.Recorder
import BringUp.Proofs.Requests
import BringUp.Proofs.Sequences

/-!
The life of a board on any hardware layer.

The environments here are all handlers of the services: they may keep any state
and give any answers.

* `Usart.pins`: the pins of a USART, with what the wiring says about them.
* `UsartStep`, `PlatformStep`: what can be done with a board that is up.
* `life plan steps`: a bring-up, and the steps on the platform that it results
  in.
* `bringUpServices plan`: the services of a bring-up.
* `BroughtUp h plan s platform t`: the platform records what the plan is and
  what the services answered.

Main statement: a bring-up asks for each of its services once and in turn,
whatever the answers are, and the platform that comes of it stays as it is for
the rest of the board's life (`bringUp_asks_in_turn`).
-/

namespace BringUp

open Board Clock Hardware

/-! ## The wiring -/

namespace Usart

/-- The pins of a USART. -/
def pins (u : Usart) : List Pin :=
  [u.wiring.tx, u.wiring.rx]

theorem txPortClock_eq (u : Usart) : u.txPortClock = Port.a.gate := by
  cases u <;> rfl

theorem rxPortClock_eq (u : Usart) : u.rxPortClock = Port.a.gate := by
  cases u <;> rfl

theorem clock_bit_lt (u : Usart) : u.wiring.clock.bit < 32 := by
  cases u <;> decide

theorem reset_bit_lt (u : Usart) : u.wiring.reset.bit < 32 := by
  cases u <;> decide

theorem number_lt_of_mem_pins {u : Usart} : ∀ pin ∈ u.pins, pin.number < Pin.perPort := by
  cases u <;> decide

theorem gate_of_mem_pins {u : Usart} : ∀ pin ∈ u.pins, pin.port.gate = Port.a.gate := by
  cases u <;> decide

theorem pins_disjoint {u v : Usart} (h : u ≠ v) : ∀ pin ∈ u.pins, pin ∉ v.pins := by
  cases u <;> cases v <;> first | exact absurd rfl h | decide

end Usart

/-! ## The steps of a life -/

/-- What can be done with a USART. -/
inductive UsartStep where
  | connect (usart : Usart)
  | release (usart : Usart)
  deriving DecidableEq, Repr

namespace UsartStep

/-- The USART that the step is about. -/
def usart : UsartStep → Usart
  | .connect usart => usart
  | .release usart => usart

def perform : UsartStep → Sequence Unit
  | .connect usart => connectUsart usart
  | .release usart => releaseUsart usart

/-- The services that the step asks for. -/
def services : UsartStep → List Service
  | .connect usart =>
      [.enableClock usart.txPortClock, .enableClock usart.rxPortClock,
        .enableClock usart.wiring.clock, .configurePin usart.wiring.tx PinSetup.usart,
        .configurePin usart.wiring.rx PinSetup.usart]
  | .release usart =>
      [.pulseReset usart.wiring.reset, .releasePin usart.wiring.tx,
        .releasePin usart.wiring.rx]

end UsartStep

/-- What can be done with a board that is up. -/
inductive PlatformStep where
  | usart (step : UsartStep)
  | idle
  | replay
  | shutdown (mode : ShutdownMode)
  deriving DecidableEq, Repr

namespace PlatformStep

def perform (platform : Platform) : PlatformStep → Sequence Unit
  | .usart (.connect u) => platform.connect u
  | .usart (.release u) => platform.release u
  | .idle => platform.idle
  | .replay => platform.report.replay
  | .shutdown mode => platform.shutdown mode

/-- The step on the platform as it is at that time. -/
def take (step : PlatformStep) : StateT Platform Sequence Unit := do
  let platform ← get
  step.perform platform

end PlatformStep

/-- A bring-up and the steps after it. The result is the platform at the end. -/
def life (plan : Plan) (steps : List PlatformStep) : Sequence Platform := do
  let platform ← bringUp plan
  let (_, last) ← (forM steps PlatformStep.take).run platform
  return last

/-! ## The services of a bring-up -/

/-- The services that a bring-up asks for, in their order. -/
def bringUpServices (plan : Plan) : List Service :=
  [.resetClocks, .initialise, .stubVectors, .configureOscillators plan.oscillators,
    .configureBusClocks plan.buses, .configurePeripheralClocks plan.peripherals]

/-- The platform holds the rates and the limits of the plan, and what the
services answered. Each service found the state that the one before it left,
from the state `s` on, and the last one left the state `t`. -/
structure BroughtUp {σ : Type} (h : Handler services σ) (plan : Plan) (s : σ)
    (platform : Platform) (t : σ) : Prop where
  rates : platform.rates = plan.rates
  limits : platform.report.limits = plan.check.map fun _ => ()
  answers : ∃ s₁ s₂ s₃ s₄ s₅,
    h.respond .resetClocks s = (.ok (), s₁) ∧
    h.respond .initialise s₁ = (.ok platform.report.initialise, s₂) ∧
    h.respond .stubVectors s₂ = (.ok (), s₃) ∧
    h.respond (.configureOscillators plan.oscillators) s₃ =
      (.ok platform.report.oscillators, s₄) ∧
    h.respond (.configureBusClocks plan.buses) s₄ = (.ok platform.report.busClocks, s₅) ∧
    h.respond (.configurePeripheralClocks plan.peripherals) s₅ =
      (.ok platform.report.peripheralClocks, t)

namespace Proc.Asks

theorem logLimits (limits : Except Violation Unit) : (Report.logLimits limits).Asks [] := by
  cases limits with
  | ok => exact .done ()
  | error violation => exact .log _ _ _

theorem logFailure (heading : String) (result : SetupResult) :
    (Report.logFailure heading result).Asks [] := by
  cases result with
  | ok => exact .done ()
  | error err => exact .log _ _ _

theorem logOutcome (report : Report) (rates : Rates) : (Board.logOutcome report rates).Asks [] := by
  unfold Board.logOutcome
  split <;> exact .log _ _ _

theorem ask (service : Service) : (Sequence.ask service).Asks [service] :=
  .request (I := Board.services) service

/-- A clock step asks for its service, between records. -/
theorem clockStep {service : Sequence SetupResult} {calls : List Service}
    (hservice : service.Asks calls) (announcement heading : String) :
    (Board.clockStep announcement heading service).Asks calls := by
  unfold Board.clockStep
  refine .after (.log _ _ _) fun _ => ?_
  have hlast : ∀ result, (do Report.logFailure heading result; return result :
      Sequence SetupResult).Asks [] := fun result =>
    .after (logFailure heading result) fun _ => .done result
  simpa using hservice.bind hlast

theorem afterReset (plan : Plan) : (BringUp.afterReset plan).Asks (bringUpServices plan).tail := by
  unfold BringUp.afterReset
  refine .cons (.ask .initialise) fun initialise => ?_
  refine .after (.logFailure _ _) fun _ => ?_
  refine .cons (.ask .stubVectors) fun _ => ?_
  refine .cons (.clockStep (.ask (.configureOscillators _)) _ _) fun oscillators => ?_
  refine .cons (.clockStep (.ask (.configureBusClocks _)) _ _) fun busClocks => ?_
  refine .cons (.clockStep (.ask (.configurePeripheralClocks _)) _ _) fun peripheralClocks => ?_
  exact .after (.logOutcome _ _) fun _ => .done _

/-- A bring-up asks for its services in their order. -/
theorem bringUp {plan : Plan} (hcore : plan.rates.sysclk = coreHz) :
    (Board.bringUp plan).Asks (bringUpServices plan) := by
  rw [bringUp_eq hcore]
  refine .after (.logLimits _) fun _ => ?_
  exact .cons (.ask .resetClocks) fun _ => .afterReset plan

end Proc.Asks

/-! ## What a bring-up results in -/

section

variable {σ : Type} {h : Handler services σ} {plan : Plan} {platform : Platform} {s t : σ}
  {log : List Log.Record}

/-- A clock step results in what its service does. -/
theorem run_of_clockStep {announcement heading : String} {service : Sequence SetupResult}
    {result : SetupResult}
    (hrun : (clockStep announcement heading service).run h s = ⟨.ok result, t, log⟩) :
    ∃ log', service.run h s = ⟨.ok result, t, log'⟩ := by
  unfold clockStep at hrun
  obtain ⟨_, _, hrun⟩ := (Proc.Asks.log _ _ _).run_after hrun
  obtain ⟨found, u, log', _, hservice, hrun⟩ := Proc.run_bind_ok hrun
  obtain ⟨_, _, hrun⟩ := (Proc.Asks.logFailure _ _).run_after hrun
  cases hrun
  exact ⟨log', hservice⟩

/-- A bring-up that comes to a result runs the core at the board's frequency. -/
theorem sysclk_eq_of_bringUp (hrun : (bringUp plan).run h s = ⟨.ok platform, t, log⟩) :
    plan.rates.sysclk = coreHz := by
  refine Classical.byContradiction fun hne => ?_
  rw [bringUp_of_ne hne] at hrun
  cases hrun

theorem broughtUp_of_run (hrun : (bringUp plan).run h s = ⟨.ok platform, t, log⟩) :
    BroughtUp h plan s platform t := by
  rw [bringUp_eq (sysclk_eq_of_bringUp hrun)] at hrun
  obtain ⟨_, _, hrun⟩ := (Proc.Asks.logLimits _).run_after hrun
  obtain ⟨_, s₁, _, _, hreset, hrun⟩ := Proc.run_bind_ok hrun
  unfold afterReset at hrun
  obtain ⟨initialise, s₂, _, _, hinit, hrun⟩ := Proc.run_bind_ok hrun
  obtain ⟨_, _, hrun⟩ := (Proc.Asks.logFailure _ _).run_after hrun
  obtain ⟨_, s₃, _, _, hstubs, hrun⟩ := Proc.run_bind_ok hrun
  obtain ⟨oscillators, s₄, _, _, hosc, hrun⟩ := Proc.run_bind_ok hrun
  obtain ⟨busClocks, s₅, _, _, hbus, hrun⟩ := Proc.run_bind_ok hrun
  obtain ⟨peripheralClocks, s₆, _, _, hper, hrun⟩ := Proc.run_bind_ok hrun
  obtain ⟨_, _, hrun⟩ := (Proc.Asks.logOutcome _ _).run_after hrun
  cases hrun
  obtain ⟨_, hosc⟩ := run_of_clockStep hosc
  obtain ⟨_, hbus⟩ := run_of_clockStep hbus
  obtain ⟨_, hper⟩ := run_of_clockStep hper
  exact ⟨rfl, rfl, s₁, s₂, s₃, s₄, s₅, Proc.respond_of_run hreset, Proc.respond_of_run hinit,
    Proc.respond_of_run hstubs, Proc.respond_of_run hosc, Proc.respond_of_run hbus,
    Proc.respond_of_run hper⟩

end

/-! ## The platform afterwards -/

namespace PlatformStep

/-- A step leaves the platform as it is. -/
theorem run_take (step : PlatformStep) (platform : Platform) :
    step.take.run platform = step.perform platform >>= fun _ => pure ((), platform) :=
  rfl

/-- And so do any number of steps. -/
theorem run_forM_take (steps : List PlatformStep) (platform : Platform) :
    (forM steps take).run platform =
      forM steps (·.perform platform) >>= fun _ => pure ((), platform) := by
  induction steps with
  | nil => rfl
  | cons step steps ih =>
      rw [List.forM_cons, StateT.run_bind, run_take, List.forM_cons, bind_assoc, bind_assoc]
      simp only [pure_bind, ih]

/-- To idle is to do nothing. -/
theorem take_idle : idle.take = pure () :=
  rfl

end PlatformStep

/-- Each step is taken on the platform that the bring-up resulted in. -/
theorem life_eq (plan : Plan) (steps : List PlatformStep) :
    life plan steps = bringUp plan >>= fun platform =>
      forM steps (·.perform platform) >>= fun _ => pure platform := by
  unfold life
  simp only [PlatformStep.run_forM_take, bind_assoc, pure_bind]

/-- The platform at the end of a life is the one that the bring-up resulted
in. -/
theorem bringUp_of_life {σ : Type} {h : Handler services σ} {plan : Plan} {s t : σ}
    {steps : List PlatformStep} {last : Platform} {log : List Log.Record}
    (hrun : (life plan steps).run h s = ⟨.ok last, t, log⟩) :
    ∃ u first, (bringUp plan).run h s = ⟨.ok last, u, first⟩ := by
  rw [life_eq] at hrun
  obtain ⟨platform, u, first, _, hbringUp, hrun⟩ := Proc.run_bind_ok hrun
  obtain ⟨_, _, _, _, _, hlast⟩ := Proc.run_bind_ok hrun
  cases hlast
  exact ⟨u, first, hbringUp⟩

/-- A life is the same without a step of idling. -/
theorem life_idle (plan : Plan) (before after : List PlatformStep) :
    life plan (before ++ .idle :: after) = life plan (before ++ after) := by
  unfold life
  simp only [List.forM_append, List.forM_cons, PlatformStep.take_idle, pure_bind]

/-! ## On the stand-in -/

/-- Every step that can fail does. -/
def allFail : Answers where
  initialise := .error (.invalidPlan (.pllMultiplier 1))
  oscillators := .error (.timeout .hse)
  busClocks := .error (.notReady .pll)
  peripheralClocks := .error (.timeout .lse)

/-- The stand-in answers everything that a bring-up asks for. -/
theorem Board.Recorder.answers_bringUp (answers : Answers) (plan : Plan) :
    ∀ c ∈ bringUpServices plan, (Recorder.handler answers).Answers c := by
  simp [bringUpServices, Handler.Answers, Recorder.handler, Recorder.answer]

/-- The board's plan comes to a result on the stand-in. -/
theorem Board.Recorder.bringUp_returns (answers : Answers) :
    ∃ platform t log,
      (bringUp Plan.board).run (Recorder.handler answers) [] = ⟨.ok platform, t, log⟩ := by
  obtain ⟨t, hlead⟩ := Handler.leads_of_answers (h := handler answers)
    (answers_bringUp answers Plan.board) []
  obtain ⟨platform, log, hrun⟩ := (Proc.Asks.bringUp (by decide)).returns hlead
  exact ⟨platform, t, log, hrun⟩

/-! ## The whole bring-up -/

/-- A bring-up on any hardware layer, from any state of it.

A plan that does not run the core at the board's frequency faults before
anything is asked for. Otherwise each service is asked for in turn, on the
state that the one before it left, whatever it answered; and with a hardware
layer that answers at all, it comes to a result. The result records the answers
as they are, later steps do not change it, and idling is not even seen. -/
theorem bringUp_asks_in_turn {σ : Type} (h : Handler services σ) (plan : Plan) (s : σ) :
    (plan.rates.sysclk ≠ coreHz →
      (bringUp plan).run h s =
        ⟨.error (.fault (.wrongCoreClock plan.rates.sysclk coreHz)), s, []⟩ ∧
      (bringUp plan).requests h s = []) ∧
    (plan.rates.sysclk = coreHz →
      (bringUp plan).requests h s = h.chain (bringUpServices plan) s ∧
      ((∀ c ∈ bringUpServices plan, h.Answers c) →
        ((bringUp plan).requests h s).map Prod.snd = bringUpServices plan ∧
        ∃ platform t log, (bringUp plan).run h s = ⟨.ok platform, t, log⟩)) ∧
    (∀ platform t log, (bringUp plan).run h s = ⟨.ok platform, t, log⟩ →
      BroughtUp h plan s platform t) ∧
    (∀ steps last t log, (life plan steps).run h s = ⟨.ok last, t, log⟩ →
      ∃ u first, (bringUp plan).run h s = ⟨.ok last, u, first⟩) ∧
    ∀ before after, life plan (before ++ .idle :: after) = life plan (before ++ after) := by
  refine ⟨fun hne => ?refused, fun hcore => ?asked, fun platform t log => broughtUp_of_run,
    fun steps last t log => bringUp_of_life, life_idle plan⟩
  case refused =>
    rw [bringUp_of_ne hne]
    exact ⟨rfl, rfl⟩
  case asked =>
    have hasks := Proc.Asks.bringUp hcore
    refine ⟨hasks.requests_eq h s, fun hanswers => ?_⟩
    obtain ⟨t, hlead⟩ := Handler.leads_of_answers (h := h) hanswers s
    obtain ⟨platform, log, hrun⟩ := hasks.returns hlead
    exact ⟨by rw [hasks.requests_eq, hlead.map_chain], platform, t, log, hrun⟩

/-- The board's plan on a hardware layer where every step fails: all of the
services are asked for, and the failures are recorded. -/
theorem bringUp_asks_in_turn_allFail :
    Plan.board.rates.sysclk = coreHz ∧
      ((bringUp Plan.board).requests (Recorder.handler allFail) []).map Prod.snd =
        bringUpServices Plan.board ∧
      ∃ platform t, BroughtUp (Recorder.handler allFail) Plan.board [] platform t := by
  obtain ⟨-, hcore, hup, -⟩ := bringUp_asks_in_turn (Recorder.handler allFail) Plan.board []
  obtain ⟨-, hall⟩ := hcore (by decide)
  obtain ⟨hasked, platform, t, log, hrun⟩ := hall (Recorder.answers_bringUp _ _)
  exact ⟨by decide, hasked, platform, t, hup _ _ _ hrun⟩

end BringUp
