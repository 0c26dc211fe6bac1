import BringUp.Proofs.BackupAccess
import BringUp.Proofs.PortClocks
import BringUp.Proofs.UsartSteps

/-!
The system reset, and who can request it.

The register that requests a reset also holds the priority grouping, which is
read, changed and written back at bring-up. What was read must not come back as
a request.

* `Aircr.Quiet`, `Aircr.Grouped`: the word requests no reset, and it has the
  grouping of the bring-up.
* `Access.Keyed`: the access is no write of the register, or one that carries
  the key and requests no reset.
* `Service.Returns`: the service comes back on every part.
* `PlatformStep.services`: the services that a step asks for.

Main statement: in the life of a board every write of the register carries the
key, and none requests a reset until a shutdown does, with a single write that
keeps the grouping; nothing comes after it (`shutdown_alone_resets`).

Only two services access the register at all. What is known of it therefore
holds as long as the other ones run, and they are all that the steps before a
shutdown ask for.
-/

namespace BringUp

open Board Clock Hardware

/-! ## The register -/

namespace Aircr

/-- No reset is requested. -/
def Quiet (w : Word) : Prop :=
  w &&& SystemControl.resetRequest = 0

instance (w : Word) : Decidable (Quiet w) :=
  inferInstanceAs (Decidable (_ = _))

/-- The priorities are grouped as the bring-up groups them. -/
def Grouped (w : Word) : Prop :=
  w &&& SystemControl.grouping.mask =
    SystemControl.groupingFourBits <<< SystemControl.grouping.shift

/-- What is known of the word after the bring-up. -/
structure Ready (w : Word) : Prop where
  quiet : Quiet w
  grouped : Grouped w

/-- The word that a shutdown writes. -/
def resetWord : Word :=
  SystemControl.key ||| (SystemControl.groupingFourBits <<< SystemControl.grouping.shift) |||
    SystemControl.resetRequest

theorem plain : Register.Plain .aircr :=
  ⟨rfl, nofun⟩

/-- The bits that the bring-up writes back as it has read them. -/
def kept : Word :=
  ~~~(SystemControl.keyMask ||| SystemControl.grouping.mask)

/-- What the bring-up makes of the word. -/
def grouped (w : Word) : Word :=
  (w &&& kept) ||| SystemControl.key |||
    ((SystemControl.groupingFourBits <<< SystemControl.grouping.shift) &&&
      SystemControl.grouping.mask)

theorem grouped_and (w mask : Word) :
    grouped w &&& mask = (w &&& (kept &&& mask)) ||| (grouped 0 &&& mask) := by
  simp only [grouped, BitVec.and_or_distrib_right, BitVec.and_assoc, BitVec.or_assoc,
    BitVec.ofNat_eq_ofNat, BitVec.zero_and, BitVec.zero_or]

theorem grouped_key (w : Word) :
    grouped w &&& SystemControl.keyMask = SystemControl.key := by
  have hnew : kept &&& SystemControl.keyMask = 0#32 := by decide
  rw [grouped_and, hnew, BitVec.and_zero]
  decide

/-- A request that was not there does not come back. -/
theorem ready_grouped {w : Word} (h : Quiet w) : Ready (grouped w) := by
  have hnew : kept &&& SystemControl.grouping.mask = 0#32 := by decide
  have hkept : kept &&& SystemControl.resetRequest = SystemControl.resetRequest := by decide
  refine ⟨?quiet, ?grouped⟩
  case quiet =>
    rw [Quiet, grouped_and, hkept, h]
    decide
  case grouped =>
    rw [Grouped, grouped_and, hnew, BitVec.and_zero]
    decide

/-- What a shutdown makes of the word. -/
def requested (w : Word) : Word :=
  SystemControl.key ||| (w &&& SystemControl.grouping.mask) ||| SystemControl.resetRequest

theorem requested_of_grouped {w : Word} (h : Grouped w) : requested w = resetWord := by
  rw [requested, h]
  rfl

end Aircr

/-- A write of the register carries the key, and requests no reset. -/
def Access.Keyed (c : Access) : Prop :=
  ∀ v, c = .write .aircr v →
    v &&& SystemControl.keyMask = SystemControl.key ∧ Aircr.Quiet v

theorem Access.keyed_of_among {rs : List Register} (hrs : .aircr ∉ rs) {c : Access}
    (hc : c.among rs = true) : c.Keyed := by
  rintro v rfl
  exact absurd (of_decide_eq_true hc) hrs

/-! ## Services that return -/

/-- The service comes back on every part: the gates and pins that it is about
exist, and it does not take the system down. -/
def Board.Service.Returns : Service → Prop
  | .enableClock gate | .pulseReset gate => gate.bit < 32
  | .configurePin pin _ | .releasePin pin => pin.number < Pin.perPort
  | .resetSystem => False
  | _ => True

/-- Beside the initialisation, no service that returns accesses the register. -/
theorem Board.Service.aircr_not_mem_registers {service : Service} (h : service.Returns)
    (hinit : service ≠ .initialise) : .aircr ∉ service.registers := by
  cases service with
  | initialise => exact absurd rfl hinit
  | resetSystem => exact h.elim
  | enableClock gate => cases hbus : gate.bus <;> simp [registers, hbus, Register.enable]
  | pulseReset line => cases hbus : line.bus <;> simp [registers, hbus, Register.reset?]
  | configurePin pin setup | releasePin pin => simp [registers, portRegisters]
  | resetClocks | stubVectors | configureOscillators plan | configureBusClocks plan
  | configurePeripheralClocks plan => simp [registers]

namespace Ensures

variable {t : Temper} (ht : t.Unlatched) {patience : Nat} {ceiling : Log.Ceiling} {p : Part}

/-- A pin's driver comes back, whether or not the port takes its writes. -/
theorem configurePin_ends {pin : Pin} {setup : PinSetup} (hpin : pin.number < Pin.perPort) :
    Ensures (simulated t) patience (fun _ => True) (configurePin pin.port pin setup) p
      (fun _ _ => True) := by
  have hmask : pin.mask = .ok (BitVec.twoPow 16 pin.number) := by
    have hlt : pin.number < 16 := hpin
    simp [Pin.mask, Checked.bit, Checked.shiftLeft, hlt, BitVec.twoPow]
  unfold configurePin latchPull
  rw [if_neg (not_not_intro rfl)]
  refine bind (R := fun _ _ => True) (ofExcept (Pin.configField_eq hpin) trivial) fun _ _ _ => ?_
  refine bind (R := fun _ _ => True) (modify trivial trivial trivial) fun _ _ _ => ?_
  refine bind (R := fun _ _ => True) (ofExcept hmask trivial) fun _ _ _ => ?_
  split
  · exact write trivial trivial
  · exact write trivial trivial
  · exact pure trivial

include ht

theorem provide_ends {service : Service} (h : service.Returns) :
    Ensures (simulated t) patience (fun _ => True) (provide ceiling service) p
      (fun _ _ => True) := by
  cases service with
  | resetClocks => exact (resetPart_confines ht patience p).ends
  | initialise => exact (initialise_confines ht patience ceiling p).ends
  | stubVectors => exact (installStubs_confines ht patience p).ends
  | configureOscillators plan => exact (configureOscillators_ensures ht plan p).ends
  | configureBusClocks plan => exact (configureBusClocks_ensures ht plan p).ends
  | configurePeripheralClocks plan =>
      exact (configurePeripheralClocks_confines ht patience plan p).ends
  | enableClock gate => exact (openGate ht h).ends
  | pulseReset line => exact (endReset ht h).ends
  | configurePin pin setup => exact configurePin_ends h
  | releasePin pin => exact configurePin_ends h
  | resetSystem => exact h.elim

omit ht in
/-- A driver of other registers writes no reset request, and what is known of
the register stays true. -/
theorem besideAircr {α : Type} {x : Driver α} {rs : List Register} {I : Word → Prop}
    (hx : x.CallsOnly (Access.among rs)) (hrs : .aircr ∉ rs)
    (hends : Ensures (simulated t) patience (fun _ => True) x p (fun _ _ => True))
    (hp : I (p.peek .aircr)) :
    Ensures (simulated t) patience (fun e => e.access.Keyed) x p
      (fun _ q => I (q.peek .aircr)) := by
  refine (hends.within (Part.peek_keeps t hrs nofun (p.peek .aircr)) hx rfl).mono ?_ ?_
  · exact fun e he => Access.keyed_of_among hrs he.1
  · exact fun _ q hq => hq.1 ▸ hp

/-- So does a service other than the initialisation. -/
theorem provide_keyed {service : Service} (h : service.Returns) (hinit : service ≠ .initialise)
    {I : Word → Prop} (hp : I (p.peek .aircr)) :
    Ensures (simulated t) patience (fun e => e.access.Keyed) (provide ceiling service) p
      (fun _ q => I (q.peek .aircr)) :=
  besideAircr (provide_among ceiling service) (Service.aircr_not_mem_registers h hinit)
    (provide_ends ht h) hp

/-- The priorities are grouped, and no reset is requested with that. -/
theorem setPriorityGrouping_keyed (hp : Aircr.Quiet (p.peek .aircr)) :
    Ensures (simulated t) patience (fun e => e.access.Keyed)
      (SystemControl.setPriorityGrouping SystemControl.groupingFourBits) p
      (fun _ q => Aircr.Ready (q.peek .aircr)) := by
  refine modify nofun ?_ ?_
  · rintro v hv
    cases hv
    exact ⟨Aircr.grouped_key _, (Aircr.ready_grouped hp).quiet⟩
  · show Aircr.Ready (((p.tick .aircr).write t .aircr (Aircr.grouped (p.peek .aircr))).peek .aircr)
    rw [Aircr.plain.tick_eq, Aircr.plain.write_eq ht rfl, Part.peek_poke_self]
    exact Aircr.ready_grouped hp

theorem initialise_keyed (hp : Aircr.Quiet (p.peek .aircr)) :
    Ensures (simulated t) patience (fun e => e.access.Keyed) (initialise ceiling) p
      (fun _ q => Aircr.Ready (q.peek .aircr)) := by
  have hgate : ∀ gate : Gate, gate.bit < 32 → ∀ q : Part, Aircr.Ready (q.peek .aircr) →
      Ensures (simulated t) patience (fun e => e.access.Keyed) (enableClock gate) q
        (fun _ u => Aircr.Ready (u.peek .aircr)) := by
    intro gate hbit q hq
    refine besideAircr (enableClock_among gate) ?_ (openGate ht hbit).ends hq
    cases gate.bus <;> decide
  unfold initialise
  have hprefetch : Flash.enablePrefetch.CallsOnly (Access.among [.acr]) :=
    .modify rfl fun _ => rfl
  refine bind (besideAircr hprefetch (by decide) (modify trivial trivial trivial) hp)
    fun _ q hq => ?_
  refine bind (setPriorityGrouping_keyed ht hq) fun _ q hq => ?_
  refine bind (hgate .afio (by decide) q hq) fun _ q hq => ?_
  refine bind (hgate .pwr (by decide) q hq) fun _ q hq => ?_
  exact bind (besideAircr (logPrefetch_among ceiling) (by decide)
    (logPrefetch_confines patience .none ceiling q).ends hq) fun _ _ hu => pure hu

/-- A bring-up groups the priorities, and requests no reset. -/
theorem bringUp_keyed {plan : Plan} (hcore : plan.rates.sysclk = coreHz)
    (hp : Aircr.Quiet (p.peek .aircr)) :
    Ensures (simulated t) patience (fun e => e.access.Keyed)
      (onRegisters ceiling (Board.bringUp plan)) p (fun _ q => Aircr.Ready (q.peek .aircr)) := by
  have hquiet : Ensures (simulated t) patience (fun e => e.access.Keyed) resetPart p
      (fun _ q => Aircr.Quiet (q.peek .aircr)) :=
    besideAircr resetPart_among (by decide) (resetPart_confines ht patience p).ends hp
  have hready : ∀ service : Service, service.Returns → service ≠ .initialise → ∀ q : Part,
      Aircr.Ready (q.peek .aircr) →
      Ensures (simulated t) patience (fun e => e.access.Keyed) (provide ceiling service) q
        (fun _ u => Aircr.Ready (u.peek .aircr)) :=
    fun service hreturns hinit q hq => provide_keyed ht hreturns hinit hq
  refine .bringUp hcore hquiet fun q hq => ?_
  refine afterReset (initialise_keyed ht hq) (hready .stubVectors trivial nofun)
    (hready (.configureOscillators _) trivial nofun)
    (fun _ => hready (.configureBusClocks _) trivial nofun) fun _ _ u hu => ?_
  exact (hready (.configurePeripheralClocks _) trivial nofun u hu).imp
    fun _ _ hdone _ _ _ _ _ => hdone

end Ensures

/-! ## The steps of a life -/

/-- The services of a step return, and the initialisation is none of them. -/
theorem UsartStep.services_return {step : UsartStep} :
    ∀ c ∈ step.services, c.Returns ∧ c ≠ .initialise := by
  rcases step with u | u <;> cases u <;> simp [services, Service.Returns] <;> decide

/-- To write records is to ask for nothing. -/
theorem Proc.Asks.replay (report : Report) : report.replay.Asks [] := by
  have hstep : ∀ step result, (Report.logStep step result).Asks [] := by
    rintro step (err | _) <;> exact .log _ _ _
  refine .after (.logLimits _) fun _ => .after (.logFailure _ _) fun _ => ?_
  refine .after (hstep _ _) fun _ => .after (hstep _ _) fun _ => .after (hstep _ _) fun _ => ?_
  split
  · exact .log _ _ _
  · exact .done ()

/-- The services that a step asks for. -/
def PlatformStep.services : PlatformStep → List Service
  | .usart step => step.services
  | .idle | .replay => []
  | .shutdown _ => [.resetSystem]

theorem Proc.Asks.beforeShutdown {step : PlatformStep} (h : ∀ mode, step ≠ .shutdown mode)
    (platform : Platform) : (step.perform platform).Asks step.services := by
  cases step with
  | usart step => exact .platformStep step platform
  | idle => exact .done ()
  | replay => exact .replay _
  | shutdown mode => exact absurd rfl (h mode)

namespace Ensures

/-- What each service of a sequence keeps is kept by the sequence. -/
theorem asks {σ α : Type} {d : Device σ} {patience : Nat} {G : Event σ → Prop} {s : σ}
    {ceiling : Log.Ceiling} {x : Sequence α} {calls : List Service} {I : σ → Prop}
    (hx : x.Asks calls)
    (hcalls : ∀ c ∈ calls, ∀ u, I u → Ensures d patience G (provide ceiling c) u (fun _ => I))
    (hs : I s) : Ensures d patience G (onRegisters ceiling x) s (fun _ => I) := by
  induction hx generalizing s with
  | done a => exact done hs
  | note record _ ih => exact note (ih hcalls hs)
  | call c _ ih =>
      obtain ⟨hc, hrest⟩ := List.forall_mem_cons.mp hcalls
      exact bind (hc s hs) fun answer _ hu => ih answer hrest hu

variable {t : Temper} (ht : t.Unlatched) {patience : Nat} {ceiling : Log.Ceiling} {p : Part}

include ht

/-- A step other than a shutdown requests no reset. -/
theorem platformStep_keyed {step : PlatformStep} (h : ∀ mode, step ≠ .shutdown mode)
    (platform : Platform) (hp : Aircr.Ready (p.peek .aircr)) :
    Ensures (simulated t) patience (fun e => e.access.Keyed)
      (onRegisters ceiling (step.perform platform)) p
      (fun _ q => Aircr.Ready (q.peek .aircr)) := by
  refine asks (.beforeShutdown h platform) (fun c hc q hq => ?_) hp
  have hreturns : c.Returns ∧ c ≠ .initialise := by
    cases step with
    | usart step => exact step.services_return c hc
    | idle | replay => cases hc
    | shutdown mode => exact absurd rfl (h mode)
  exact provide_keyed ht hreturns.1 hreturns.2 hq

/-- And so do any number of them. -/
theorem platformSteps_keyed {steps : List PlatformStep} (h : ∀ mode, .shutdown mode ∉ steps)
    (platform : Platform) (hp : Aircr.Ready (p.peek .aircr)) :
    Ensures (simulated t) patience (fun e => e.access.Keyed)
      (onRegisters ceiling (forM steps (·.perform platform))) p
      (fun _ q => Aircr.Ready (q.peek .aircr)) := by
  induction steps generalizing p with
  | nil => exact done hp
  | cons step steps ih =>
      have hstep : ∀ mode, step ≠ .shutdown mode := by
        rintro mode rfl
        exact h mode List.mem_cons_self
      rw [List.forM_cons]
      refine seqBind (platformStep_keyed ht hstep platform hp) fun _ q hq => ?_
      exact ih (fun mode hmem => h mode (List.mem_cons_of_mem _ hmem)) hq

theorem life_keyed {plan : Plan} (hcore : plan.rates.sysclk = coreHz)
    (hp : Aircr.Quiet (p.peek .aircr)) {steps : List PlatformStep}
    (h : ∀ mode, .shutdown mode ∉ steps) :
    Ensures (simulated t) patience (fun e => e.access.Keyed)
      (onRegisters ceiling (life plan steps)) p (fun _ q => Aircr.Ready (q.peek .aircr)) := by
  rw [life_eq]
  refine seqBind (bringUp_keyed ht hcore hp) fun platform q hq => ?_
  exact seqBind (platformSteps_keyed ht h platform hq) fun _ u hu => done hu

end Ensures

/-! ## The shutdown -/

/-- A life goes on from where its first steps have led. -/
theorem life_append (plan : Plan) (steps others : List PlatformStep) :
    life plan (steps ++ others) = life plan steps >>= fun platform =>
      forM others (·.perform platform) >>= fun _ => pure platform := by
  simp only [life_eq, bind_assoc, pure_bind, List.forM_append]

section

variable {t : Temper} {ceiling : Log.Ceiling} {platform : Platform} {q : Part}
  {mode : ShutdownMode} {others : List PlatformStep}

/-- A shutdown writes a record and requests the reset, and nothing comes after
it. -/
theorem onRegisters_shutdown :
    onRegisters ceiling (forM (.shutdown mode :: others) (·.perform platform) >>= fun _ =>
        pure platform) =
      Proc.note ⟨.info, Log.Target.board, "shutdown (" ++ mode.text ++ "): resetting"⟩
        SystemControl.requestReset :=
  rfl

/-- The reset is requested with a single write, which is the end of the run. -/
theorem requestReset_run (ht : t.Unlatched) (patience : Nat) (hq : Aircr.Ready (q.peek .aircr)) :
    (SystemControl.requestReset (α := Platform)).run ((simulated t).handler patience) q =
        ⟨.error .reset, q.poke .aircr Aircr.resetWord, []⟩ ∧
      (SystemControl.requestReset (α := Platform)).history (simulated t) patience q =
        [⟨q, .read .aircr, q⟩, ⟨q, .write .aircr Aircr.resetWord,
          q.poke .aircr Aircr.resetWord⟩] := by
  have htick : q.tick .aircr = q := Aircr.plain.tick_eq q
  have hwrite : (simulated t).write .aircr Aircr.resetWord q = q.poke .aircr Aircr.resetWord :=
    Aircr.plain.write_eq ht rfl _
  let w := Aircr.requested (q.peek .aircr)
  show Run.mk _ ((simulated t).write .aircr w (q.tick .aircr)) [] = _ ∧
    [Event.mk q (.read .aircr) (q.tick .aircr), Event.mk (q.tick .aircr) (.write .aircr w)
      ((simulated t).write .aircr w (q.tick .aircr))] = _
  have hw : w = Aircr.resetWord := Aircr.requested_of_grouped hq.grouped
  rw [htick, hw, hwrite]
  exact ⟨rfl, rfl⟩

end

/-- In the life of a board nothing but a shutdown resets the system. Take any
part without stuck bits, with no reset requested at the start, and any plan
that is brought up.

Any steps without a shutdown come to their end. On the way every write of the
register carries the key, and none requests a reset. A shutdown after them, in
whatever mode and with whatever was to come next, makes a single write, which
requests the reset and keeps the grouping that the bring-up has set; and there
the run ends. -/
theorem shutdown_alone_resets {t : Temper} (ht : t.Unlatched) (patience : Nat)
    (ceiling : Log.Ceiling) {plan : Plan} {p : Part} (hquiet : Aircr.Quiet (p.peek .aircr))
    (hup : ∃ platform u log, (onRegisters ceiling (bringUp plan)).run
      ((simulated t).handler patience) p = ⟨.ok platform, u, log⟩)
    {steps : List PlatformStep} (hsteps : ∀ mode, .shutdown mode ∉ steps) :
    ∃ platform q log,
      (onRegisters ceiling (life plan steps)).run ((simulated t).handler patience) p =
        ⟨.ok platform, q, log⟩ ∧
      (∀ e ∈ (onRegisters ceiling (life plan steps)).history (simulated t) patience p,
        ∀ v, e.access = .write .aircr v →
          v &&& SystemControl.keyMask = SystemControl.key ∧ Aircr.Quiet v) ∧
      Aircr.Grouped (q.peek .aircr) ∧
      ∀ mode others,
        let down := onRegisters ceiling (life plan (steps ++ .shutdown mode :: others))
        let after := q.poke .aircr Aircr.resetWord
        (down.run ((simulated t).handler patience) p).outcome = .error .reset ∧
        (down.run ((simulated t).handler patience) p).state = after ∧
        down.history (simulated t) patience p =
          (onRegisters ceiling (life plan steps)).history (simulated t) patience p ++
            [⟨q, .read .aircr, q⟩, ⟨q, .write .aircr Aircr.resetWord, after⟩] := by
  have hcore : plan.rates.sysclk = coreHz := by
    refine Classical.byContradiction fun hne => ?_
    obtain ⟨platform, u, log, hrun⟩ := hup
    rw [bringUp_of_ne hne] at hrun
    cases hrun
  have hlife : Ensures (simulated t) patience (fun e => e.access.Keyed)
      (onRegisters ceiling (life plan steps)) p (fun _ q => Aircr.Ready (q.peek .aircr)) :=
    .life_keyed ht hcore hquiet hsteps
  obtain ⟨hkeyed, platform, q, log, hrun, hready⟩ := hlife
  refine ⟨platform, q, log, hrun, hkeyed, hready.grouped, fun mode others => ?_⟩
  obtain ⟨hreset, hevents⟩ := requestReset_run ht patience hready
  dsimp only
  rw [life_append, onRegisters_bind, Proc.history_bind_of_run hrun, Proc.run_bind, hrun]
  dsimp only
  rw [onRegisters_shutdown, Proc.history, hevents, Proc.run, hreset]
  exact ⟨rfl, rfl, rfl⟩

/-- The board's plan at power-on: a USART is connected and released, and the
board goes down. The last event is the write of the reset. -/
theorem shutdown_alone_resets_board :
    Temper.prompt.Unlatched ∧ Aircr.Quiet ((Part.powerOn Part.bootVector).peek .aircr) ∧
    (∃ platform u log, (onRegisters .all (bringUp .board)).run
      ((simulated .prompt).handler 0) (.powerOn Part.bootVector) = ⟨.ok platform, u, log⟩) ∧
    (∀ mode, PlatformStep.shutdown mode ∉
      [.usart (.connect .usart1), .replay, .usart (.release .usart1)]) ∧
    ∃ e, ((onRegisters .all (life .board [.usart (.connect .usart1), .replay,
        .usart (.release .usart1), .shutdown .halt, .idle])).history (simulated .prompt) 0
          (.powerOn Part.bootVector)).getLast? = some e ∧
      e.access = .write .aircr 0x05FA0304 := by
  have hquiet : Aircr.Quiet ((Part.powerOn Part.bootVector).peek .aircr) := by decide
  have hbringUp : Ensures (simulated .prompt) 0 (fun e => e.access.Keyed)
      (onRegisters .all (bringUp .board)) (.powerOn Part.bootVector)
      (fun _ q => Aircr.Ready (q.peek .aircr)) :=
    .bringUp_keyed Temper.prompt_unlatched (by decide) hquiet
  obtain ⟨-, platform, u, log, hrun, -⟩ := hbringUp
  have hsteps : ∀ mode, PlatformStep.shutdown mode ∉
      [.usart (.connect .usart1), .replay, .usart (.release .usart1)] := by simp
  obtain ⟨_, q, _, -, -, -, hdown⟩ := shutdown_alone_resets Temper.prompt_unlatched 0 .all hquiet
    ⟨platform, u, log, hrun⟩ hsteps
  obtain ⟨-, -, hevents⟩ := hdown .halt [.idle]
  refine ⟨Temper.prompt_unlatched, hquiet, ⟨platform, u, log, hrun⟩, hsteps,
    ⟨q, .write .aircr Aircr.resetWord, q.poke .aircr Aircr.resetWord⟩, ?_, rfl⟩
  refine (congrArg List.getLast? hevents).trans ?_
  rw [List.getLast?_append]
  rfl

end BringUp
