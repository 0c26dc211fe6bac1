import BringUp.Proofs.BoardLife

/-!
The log of a bring-up and the replay of its report.

A bring-up logs as it goes, at a time when there is no console. The report is
replayed once there is one. The two are written down separately.

* `SetupStep`: the steps that can fail, in their order, with the heading of each
  one's failure in the log and in the replay.
* `Report.failures`: the steps that failed, with their errors.
* `bootRecords`, `Report.replayRecords`: what the two log.
* `Log.only level`: the records of one level.

Main statements: a bring-up logs its `bootRecords`, whatever it is answered, and
results in the platform of those answers (`run_of_broughtUp`); the replay logs its
`replayRecords` and asks for nothing (`Report.run_replay`); and on every hardware
layer that answers, the two tell the same (`replay_tells_what_bringUp_logged`).

Both logs come step by step, and of each step there is the record of its failure
and what is said about it otherwise. That is at the debug level, so the errors are
the failures (`only_error_steps`), and nothing of the steps is at another level.
-/

namespace BringUp

open Board Clock

/-! ## Records of one level -/

namespace Log

/-- The records of one level, in their order. -/
def only (level : Level) (records : List Record) : List Record :=
  records.filter (·.level = level)

variable {level : Level}

@[simp]
theorem only_append (records others : List Record) :
    only level (records ++ others) = only level records ++ only level others :=
  List.filter_append _ _

theorem only_eq_self {records : List Record} (h : ∀ record ∈ records, record.level = level) :
    only level records = records :=
  List.filter_eq_self.mpr fun record hrecord => decide_eq_true (h record hrecord)

theorem only_eq_nil {records : List Record} (h : ∀ record ∈ records, record.level ≠ level) :
    only level records = [] :=
  List.filter_eq_nil_iff.mpr fun record hrecord => by simpa using h record hrecord

end Log

/-! ## Steps that can fail -/

/-- The steps of a bring-up that can fail. -/
inductive SetupStep where
  | initialise
  | oscillators
  | busClocks
  | peripheralClocks
  deriving DecidableEq, Repr

namespace SetupStep

def inOrder : List SetupStep :=
  [.initialise, .oscillators, .busClocks, .peripheralClocks]

/-- What the report has about the step. -/
def result (r : Report) : SetupStep → SetupResult
  | .initialise => r.initialise
  | .oscillators => r.oscillators
  | .busClocks => r.busClocks
  | .peripheralClocks => r.peripheralClocks

/-- The heading of the step's failure in the log of the bring-up. -/
def heading : SetupStep → String
  | .initialise => "HAL init"
  | .oscillators => "oscillator configuration"
  | .busClocks => "bus clock configuration"
  | .peripheralClocks => "peripheral clock configuration"

/-- The heading of what the replay says about a clock step. -/
def clockHeading (label : String) : String :=
  "clock bring-up: " ++ label

/-- The heading of what the replay says about the step. -/
def replayHeading : SetupStep → String
  | .initialise => "HAL init"
  | .oscillators => clockHeading "oscillators"
  | .busClocks => clockHeading "clock tree"
  | .peripheralClocks => clockHeading "peripheral clocks"

/-- What a bring-up records before the step. -/
def announced : SetupStep → List Log.Record
  | .initialise => []
  | .oscillators => [⟨.debug, Log.Target.board, "configuring oscillators"⟩]
  | .busClocks => [⟨.debug, Log.Target.board, "configuring bus clocks"⟩]
  | .peripheralClocks => [⟨.debug, Log.Target.board, "configuring peripheral clocks"⟩]

theorem level_of_mem_announced {step : SetupStep} :
    ∀ record ∈ step.announced, record.level = .debug := by
  cases step <;> simp [announced]

end SetupStep

/-! ## What is logged -/

/-- A warning that the plan is outside the part's limits, with the violation. -/
def limitsRecords {α : Type} (limits : Except Violation α) : List Log.Record :=
  match limits with
  | .ok _ => []
  | .error violation =>
      [⟨.warn, Log.Target.board, "clock configuration outside part limits: " ++ violation.message⟩]

/-- The record of a failure: its heading and its error. -/
def failureRecord (heading : String) (err : SetupError) : Log.Record :=
  ⟨.error, Log.Target.board, heading ++ " failed: " ++ err.message⟩

/-- A success is not recorded. -/
def failureRecords (heading : String) (result : SetupResult) : List Log.Record :=
  match result with
  | .ok _ => []
  | .error err => [failureRecord heading err]

/-- A success in the replay. -/
def successRecords (heading : String) (result : SetupResult) : List Log.Record :=
  match result with
  | .ok _ => [⟨.debug, Log.Target.board, heading ++ " ok"⟩]
  | .error _ => []

/-- What the replay records of a step that succeeded: of the first one, nothing. -/
def SetupStep.praised (step : SetupStep) (result : SetupResult) : List Log.Record :=
  match step with
  | .initialise => []
  | step => successRecords step.replayHeading result

theorem SetupStep.level_of_mem_praised {step : SetupStep} {result : SetupResult} :
    ∀ record ∈ step.praised result, record.level = .debug := by
  cases step <;> cases result <;> simp [praised, successRecords]

/-- The planned rates were reached. -/
def doneRecord (rates : Rates) : Log.Record :=
  ⟨.info, Log.Target.board, "clock bring-up done: " ++ rates.text⟩

/-- The planned rates were not reached. -/
def incompleteRecord (rates : Rates) : Log.Record :=
  ⟨.warn, Log.Target.board, "clock bring-up incomplete, " ++ rates.text ++ " not reached"⟩

/-- The core is slower than it should be. -/
def belowTargetRecord : Log.Record :=
  ⟨.warn, Log.Target.board, "core clock below " ++ toString coreHz ++ " Hz target"⟩

/-- The log of a bring-up that the report came of. -/
def bootRecords (rates : Rates) (r : Report) : List Log.Record :=
  limitsRecords r.limits ++
    SetupStep.inOrder.flatMap
      (fun step => step.announced ++ failureRecords step.heading (step.result r)) ++
    [if r.targetReached then doneRecord rates else incompleteRecord rates]

namespace Board.Report

/-- The steps that failed, in their order, with their errors. -/
def failures (r : Report) : List (SetupStep × SetupError) :=
  SetupStep.inOrder.filterMap fun step =>
    match step.result r with
    | .ok _ => none
    | .error err => some (step, err)

/-- The log of a replay. -/
def replayRecords (r : Report) : List Log.Record :=
  limitsRecords r.limits ++
    SetupStep.inOrder.flatMap
      (fun step => step.praised (step.result r) ++
        failureRecords step.replayHeading (step.result r)) ++
    if r.targetReached then [] else [belowTargetRecord]

end Board.Report

/-! ## Runs -/

section Runs

variable {σ : Type} {h : Handler services σ} {plan : Plan} {platform : Platform} {s t : σ}

/-- A service is answered without a record. -/
theorem run_ask {service : Service} {answer : service.Answer}
    (hrespond : h.respond service s = (.ok answer, t)) :
    (Sequence.ask service).run h s = ⟨.ok answer, t, []⟩ := by
  simp only [Sequence.ask, Proc.request, Proc.run, hrespond]

variable (h) (s)

theorem run_logLimits (limits : Except Violation Unit) :
    (Report.logLimits limits).run h s = ⟨.ok (), s, limitsRecords limits⟩ := by
  cases limits <;> rfl

theorem run_logFailure (heading : String) (result : SetupResult) :
    (Report.logFailure heading result).run h s = ⟨.ok (), s, failureRecords heading result⟩ := by
  cases result <;> rfl

theorem run_logStep (label : String) (result : SetupResult) :
    (Report.logStep label result).run h s =
      ⟨.ok (), s, successRecords (SetupStep.clockHeading label) result ++
        failureRecords (SetupStep.clockHeading label) result⟩ := by
  cases result <;> rfl

theorem run_logOutcome (r : Report) (rates : Rates) :
    (Board.logOutcome r rates).run h s =
      ⟨.ok (), s, [if r.targetReached then doneRecord rates else incompleteRecord rates]⟩ := by
  unfold Board.logOutcome
  split <;> rfl

variable {h} {s}

/-- A clock step records its start and its failure. -/
theorem run_clockStep {service : Sequence SetupResult} {result : SetupResult}
    (hservice : service.run h s = ⟨.ok result, t, []⟩) (announcement heading : String) :
    (clockStep announcement heading service).run h s =
      ⟨.ok result, t, ⟨.debug, Log.Target.board, announcement⟩ ::
        failureRecords heading result⟩ := by
  have hlog : (Sequence.log .debug Log.Target.board announcement).run h s =
      ⟨.ok (), s, [⟨.debug, Log.Target.board, announcement⟩]⟩ := rfl
  unfold clockStep
  refine (Proc.run_bind_of_run hlog <| Proc.run_bind_of_run hservice <|
    Proc.run_bind_of_run (run_logFailure h t heading result) (Proc.run_pure h t result)).trans ?_
  rw [List.append_nil, List.nil_append, List.singleton_append]

/-- A bring-up on any hardware layer that gives these answers. -/
theorem run_of_broughtUp (hcore : plan.rates.sysclk = coreHz)
    (hup : BroughtUp h plan s platform t) :
    (bringUp plan).run h s = ⟨.ok platform, t, bootRecords plan.rates platform.report⟩ := by
  obtain ⟨rates, limits, initialise, oscillators, busClocks, peripheralClocks⟩ := platform
  obtain ⟨hrates, hlimits, s₁, s₂, s₃, s₄, s₅, hreset, hinit, hstubs, hosc, hbus, hper⟩ := hup
  obtain rfl : rates = plan.rates := hrates
  obtain rfl : limits = plan.check.map fun _ => () := hlimits
  rw [bringUp_eq hcore]
  unfold afterReset
  refine (Proc.run_bind_of_run (run_logLimits h s _) <|
    Proc.run_bind_of_run (run_ask hreset) <|
    Proc.run_bind_of_run (run_ask hinit) <|
    Proc.run_bind_of_run (run_logFailure h s₂ _ initialise) <|
    Proc.run_bind_of_run (run_ask hstubs) <|
    Proc.run_bind_of_run (run_clockStep (run_ask hosc) _ _) <|
    Proc.run_bind_of_run (run_clockStep (run_ask hbus) _ _) <|
    Proc.run_bind_of_run (run_clockStep (run_ask hper) _ _) <|
    Proc.run_bind_of_run (run_logOutcome h t _ plan.rates)
      (Proc.run_pure h t (Platform.mk plan.rates _))).trans ?_
  refine congrArg (Run.mk _ _) ?_
  simp only [bootRecords, SetupStep.inOrder, List.flatMap_cons, List.flatMap_nil,
    SetupStep.announced, SetupStep.heading, SetupStep.result, List.append_assoc,
    List.nil_append, List.append_nil, List.cons_append]

/-- The replay of a report, on any hardware layer. -/
theorem Board.Report.run_replay (r : Report) (h : Handler services σ) (s : σ) :
    r.replay.run h s = ⟨.ok (), s, r.replayRecords⟩ := by
  have hlast : (if !r.targetReached then Sequence.log .warn Log.Target.board
      ("core clock below " ++ toString coreHz ++ " Hz target") else pure ()).run h s =
      ⟨.ok (), s, if r.targetReached then [] else [belowTargetRecord]⟩ := by
    cases r.targetReached <;> rfl
  unfold replay
  refine (Proc.run_bind_of_run (run_logLimits h s _) <|
    Proc.run_bind_of_run (run_logFailure h s _ _) <|
    Proc.run_bind_of_run (run_logStep h s _ _) <|
    Proc.run_bind_of_run (run_logStep h s _ _) <|
    Proc.run_bind_of_run (run_logStep h s _ _) hlast).trans ?_
  simp only [replayRecords, SetupStep.inOrder, List.flatMap_cons, List.flatMap_nil,
    SetupStep.praised, SetupStep.replayHeading, SetupStep.result, List.append_assoc,
    List.nil_append]

end Runs

/-! ## What the records of one level are -/

section Levels

variable (r : Report)

/-- The failures, recorded under any headings, step by step. -/
theorem map_failures (heading : SetupStep → String) :
    r.failures.map (fun failure => failureRecord (heading failure.1) failure.2) =
      SetupStep.inOrder.flatMap fun step => failureRecords (heading step) (step.result r) := by
  unfold Report.failures
  induction SetupStep.inOrder with
  | nil => rfl
  | cons step steps ih =>
      rw [List.filterMap_cons, List.flatMap_cons, ← ih]
      cases step.result r <;> rfl

theorem level_of_mem_failureRecords {heading : String} {result : SetupResult} :
    ∀ record ∈ failureRecords heading result, record.level = .error := by
  cases result <;> simp [failureRecords, failureRecord]

theorem level_of_mem_limitsRecords {α : Type} {limits : Except Violation α} :
    ∀ record ∈ limitsRecords limits, record.level = .warn := by
  cases limits <;> simp [limitsRecords]

variable {r} {quiet : SetupStep → List Log.Record} (hquiet : ∀ step, ∀ record ∈ quiet step,
  record.level = .debug) (heading : SetupStep → String)

include hquiet

/-- The errors among what is recorded step by step are the failures. -/
theorem only_error_steps :
    Log.only .error (SetupStep.inOrder.flatMap fun step =>
      quiet step ++ failureRecords (heading step) (step.result r)) =
    r.failures.map fun failure => failureRecord (heading failure.1) failure.2 := by
  rw [map_failures, Log.only, List.filter_flatMap]
  congr 1
  funext step
  show Log.only .error _ = _
  rw [Log.only_append, Log.only_eq_self level_of_mem_failureRecords, Log.only_eq_nil,
    List.nil_append]
  intro record hrecord
  rw [hquiet step record hrecord]
  decide

/-- Apart from them it is all at the debug level. -/
theorem only_steps_eq_nil {level : Log.Level} (herror : level ≠ .error) (hdebug : level ≠ .debug) :
    Log.only level (SetupStep.inOrder.flatMap fun step =>
      quiet step ++ failureRecords (heading step) (step.result r)) = [] := by
  refine Log.only_eq_nil fun record hrecord => ?_
  obtain ⟨step, -, hstep⟩ := List.mem_flatMap.mp hrecord
  rcases List.mem_append.mp hstep with h | h
  · rw [hquiet step record h]
    exact hdebug.symm
  · rw [level_of_mem_failureRecords record h]
    exact herror.symm

end Levels

/-! ## The two logs -/

/-- The log of a bring-up and the replay of its report, level by level. -/
structure SameStory (plan : Plan) (r : Report) (boot replayed : List Log.Record) : Prop where
  errors : Log.only .error boot =
    r.failures.map fun failure => failureRecord failure.1.heading failure.2
  replayedErrors : Log.only .error replayed =
    r.failures.map fun failure => failureRecord failure.1.replayHeading failure.2
  warnings : Log.only .warn boot =
    limitsRecords plan.check ++ if r.targetReached then [] else [incompleteRecord plan.rates]
  replayedWarnings : Log.only .warn replayed =
    limitsRecords plan.check ++ if r.targetReached then [] else [belowTargetRecord]
  infos : Log.only .info boot = if r.targetReached then [doneRecord plan.rates] else []
  replayedInfos : Log.only .info replayed = []

/-- There are as many errors in the one as in the other. -/
theorem SameStory.length_errors {plan : Plan} {r : Report} {boot replayed : List Log.Record}
    (h : SameStory plan r boot replayed) :
    (Log.only .error boot).length = (Log.only .error replayed).length := by
  rw [h.errors, h.replayedErrors, List.length_map, List.length_map]

theorem limitsRecords_map {α β : Type} (f : α → β) (limits : Except Violation α) :
    limitsRecords (limits.map f) = limitsRecords limits := by
  cases limits <;> rfl

/-- The logs of a report with the limits of the plan tell the same. -/
theorem sameStory_of_limits {plan : Plan} {r : Report}
    (hlimits : r.limits = plan.check.map fun _ => ()) :
    SameStory plan r (bootRecords plan.rates r) r.replayRecords := by
  have hlevel : ∀ record ∈ limitsRecords r.limits, record.level = .warn :=
    level_of_mem_limitsRecords
  have hwarn : Log.only .warn (limitsRecords r.limits) = limitsRecords plan.check := by
    rw [Log.only_eq_self hlevel, hlimits, limitsRecords_map]
  have herror : Log.only .error (limitsRecords r.limits) = [] :=
    Log.only_eq_nil fun record hrecord => by rw [hlevel record hrecord]; decide
  have hinfo : Log.only .info (limitsRecords r.limits) = [] :=
    Log.only_eq_nil fun record hrecord => by rw [hlevel record hrecord]; decide
  have hannounced : ∀ step : SetupStep, ∀ record ∈ step.announced, record.level = .debug :=
    fun _ => SetupStep.level_of_mem_announced
  have hpraised : ∀ step : SetupStep, ∀ record ∈ step.praised (step.result r),
      record.level = .debug := fun _ => SetupStep.level_of_mem_praised
  constructor
  case errors =>
    rw [bootRecords, Log.only_append, Log.only_append, herror, only_error_steps hannounced]
    cases r.targetReached <;> exact List.append_nil _
  case replayedErrors =>
    rw [Report.replayRecords, Log.only_append, Log.only_append, herror, only_error_steps hpraised]
    cases r.targetReached <;> exact List.append_nil _
  case warnings =>
    rw [bootRecords, Log.only_append, Log.only_append, hwarn,
      only_steps_eq_nil hannounced _ (by decide) (by decide), List.append_nil]
    cases r.targetReached <;> rfl
  case replayedWarnings =>
    rw [Report.replayRecords, Log.only_append, Log.only_append, hwarn,
      only_steps_eq_nil hpraised _ (by decide) (by decide), List.append_nil]
    cases r.targetReached <;> rfl
  case infos =>
    rw [bootRecords, Log.only_append, Log.only_append, hinfo,
      only_steps_eq_nil hannounced _ (by decide) (by decide)]
    cases r.targetReached <;> rfl
  case replayedInfos =>
    rw [Report.replayRecords, Log.only_append, Log.only_append, hinfo,
      only_steps_eq_nil hpraised _ (by decide) (by decide)]
    cases r.targetReached <;> rfl

/-- The log of a bring-up and the replay of its report, on any two hardware
layers, from any states of them. Take a plan that runs the core at the board's
frequency. If the services are answered at all, then the bring-up comes to a
result; and whenever it does, the report holds what the services answered, the
replay runs to its end, and it tells what was logged: the same failures in the
same order, the same warning about the limits, and whether the target was
reached. -/
theorem replay_tells_what_bringUp_logged {σ τ : Type} (h : Handler services σ)
    (h' : Handler services τ) {plan : Plan} (hcore : plan.rates.sysclk = coreHz) (s : σ) (s' : τ) :
    ((∀ c ∈ bringUpServices plan, h.Answers c) →
      ∃ platform t boot, (bringUp plan).run h s = ⟨.ok platform, t, boot⟩) ∧
    ∀ platform t boot, (bringUp plan).run h s = ⟨.ok platform, t, boot⟩ →
      BroughtUp h plan s platform t ∧
      ∃ replayed, platform.report.replay.run h' s' = ⟨.ok (), s', replayed⟩ ∧
        SameStory plan platform.report boot replayed ∧
        (Log.only .error boot).length = (Log.only .error replayed).length := by
  refine ⟨fun hanswers => ?returns, fun platform t boot hrun => ?tells⟩
  case returns =>
    obtain ⟨t, hlead⟩ := Handler.leads_of_answers (h := h) hanswers s
    obtain ⟨platform, boot, hrun⟩ := (Proc.Asks.bringUp hcore).returns hlead
    exact ⟨platform, t, boot, hrun⟩
  case tells =>
    have hup := broughtUp_of_run hrun
    have hboot := run_of_broughtUp hcore hup
    rw [hrun] at hboot
    obtain rfl : boot = bootRecords plan.rates platform.report := congrArg Run.log hboot
    have hstory := sameStory_of_limits hup.limits
    exact ⟨hup, _, platform.report.run_replay h' s', hstory, hstory.length_errors⟩

/-- The board's plan on a hardware layer where every step fails: there are four
errors in the log, and four in the replay. -/
theorem replay_tells_four_failures :
    Plan.board.rates.sysclk = coreHz ∧
    ∃ platform t boot replayed,
      (bringUp .board).run (Recorder.handler allFail) [] = ⟨.ok platform, t, boot⟩ ∧
      platform.report.replay.run (Recorder.handler allFail) t = ⟨.ok (), t, replayed⟩ ∧
      SameStory .board platform.report boot replayed ∧
      (Log.only .error boot).length = 4 ∧ (Log.only .error replayed).length = 4 := by
  have htest : ((bringUp .board).run (Recorder.handler allFail) []).outcome.toOption.any
      (fun platform => platform.report.failures.length = 4) = true := by
    decide +kernel
  obtain ⟨platform, hrun, hfour⟩ := Run.result_of_any htest
  have hcore : Plan.board.rates.sysclk = coreHz := by decide
  obtain ⟨-, htells⟩ := replay_tells_what_bringUp_logged (Recorder.handler allFail)
    (Recorder.handler allFail) hcore []
    ((bringUp .board).run (Recorder.handler allFail) []).state
  obtain ⟨-, replayed, hreplay, hstory, hsame⟩ := htells platform _ _ hrun
  have hlength : (Log.only .error ((bringUp .board).run (Recorder.handler allFail) []).log).length =
      4 := by
    rw [hstory.errors, List.length_map]
    exact of_decide_eq_true hfour
  exact ⟨hcore, platform, _, _, replayed, hrun, hreplay, hstory, hlength, hsame ▸ hlength⟩

end BringUp
