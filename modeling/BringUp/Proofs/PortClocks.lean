import BringUp.Proofs.BoardLife

/-!
Pins and the clocks of their ports.

A port takes no writes while its clock is off, so the clock has to come before
the pins.

* `Service.pin?`: the pin that a service configures.
* `PinsClocked calls`: no pin is configured before the clock of its port has
  been enabled.

Main statement: after a bring-up, a sequence of connecting and releasing USARTs
respects the clocks exactly when it does not start with a release
(`pinsClocked_iff`). All pins of the USARTs are on one port, so the first
connection clocks all of them; a release clocks nothing.
-/

namespace BringUp

open Board Clock Hardware

/-- The pin that the service configures. -/
def Board.Service.pin? : Service → Option Pin
  | .configurePin pin _ | .releasePin pin => some pin
  | _ => none

/-- Whatever pin is configured, the clock of its port has been enabled
before. -/
def PinsClocked (calls : List Service) : Prop :=
  ∀ before c after pin, calls = before ++ c :: after → c.pin? = some pin →
    .enableClock pin.port.gate ∈ before

namespace PinsClocked

variable {calls others : List Service}

theorem of_isPrefix (hcalls : PinsClocked calls) (hinit : others <+: calls) :
    PinsClocked others := by
  obtain ⟨rest, rfl⟩ := hinit
  intro before c after pin heq
  exact hcalls before c (after ++ rest) pin (by simp [heq])

theorem of_pinless (hcalls : ∀ c ∈ calls, c.pin? = none) : PinsClocked calls := by
  intro before c after pin heq hpin
  have hnone := hcalls c (by simp [heq])
  rw [hpin] at hnone
  cases hnone

/-- Calls whose pins are clocked by what came before may follow. -/
theorem append (hcalls : PinsClocked calls)
    (hothers : ∀ c ∈ others, ∀ pin, c.pin? = some pin → .enableClock pin.port.gate ∈ calls) :
    PinsClocked (calls ++ others) := by
  intro before c after pin heq hpin
  obtain ⟨between, rfl, hlate⟩ | ⟨between, rfl, hearly⟩ := List.append_eq_append_iff.mp heq
  case inl => exact List.mem_append_left _ (hothers c (by simp [hlate]) pin hpin)
  case inr =>
    cases between with
    | nil =>
        have hmem : c ∈ others := by
          rw [← List.nil_append others, ← hearly]
          exact List.mem_cons_self
        simpa using hothers c hmem pin hpin
    | cons d between =>
        obtain ⟨rfl, -⟩ := List.cons.inj hearly
        exact hcalls before c between pin rfl hpin

end PinsClocked

/-! ## What a life asks for -/

namespace Proc.Asks

theorem usartStep (step : UsartStep) : step.perform.Asks step.services := by
  cases step with
  | connect u =>
      refine .after (.log _ _ _) fun _ => ?_
      refine .cons (.ask _) fun _ => .cons (.ask _) fun _ => .cons (.ask _) fun _ => ?_
      exact .cons (.ask _) fun _ => .ask _
  | release u =>
      refine .after (.log _ _ _) fun _ => ?_
      exact .cons (.ask _) fun _ => .cons (.ask _) fun _ => .ask _

theorem platformStep (step : UsartStep) (platform : Platform) :
    ((PlatformStep.usart step).perform platform).Asks step.services := by
  cases step with
  | connect u => exact .usartStep (.connect u)
  | release u => exact .usartStep (.release u)

/-- A life with USARTs asks for the services of its bring-up, and then for
those of the steps. -/
theorem life {plan : Plan} (hcore : plan.rates.sysclk = coreHz) (steps : List UsartStep) :
    (BringUp.life plan (steps.map .usart)).Asks
      (bringUpServices plan ++ steps.flatMap UsartStep.services) := by
  rw [life_eq]
  refine .bind (.bringUp hcore) fun platform => ?_
  have hsteps : (forM (steps.map .usart) (PlatformStep.perform platform)).Asks
      (steps.flatMap UsartStep.services) := by
    rw [List.forM_map]
    exact .each (.platformStep · platform)
  simpa using hsteps.bind fun _ => .done platform

end Proc.Asks

/-! ## Clocks before pins -/

namespace UsartStep

variable {step : UsartStep} {c : Service} {pin : Pin}

/-- A step configures the pins of its USART. -/
theorem mem_pins (hc : c ∈ step.services) (hpin : c.pin? = some pin) :
    pin ∈ step.usart.pins := by
  cases step with
  | connect u =>
      simp only [services, List.mem_cons, List.not_mem_nil, or_false] at hc
      rcases hc with rfl | rfl | rfl | rfl | rfl <;> simp_all [Service.pin?, usart, Usart.pins]
  | release u =>
      simp only [services, List.mem_cons, List.not_mem_nil, or_false] at hc
      rcases hc with rfl | rfl | rfl <;> simp_all [Service.pin?, usart, Usart.pins]

/-- The USARTs share a port, so the gate of any of them is that of every
pin. -/
theorem gate_of_pin (hc : c ∈ step.services) (hpin : c.pin? = some pin) (u : Usart) :
    pin.port.gate = u.txPortClock := by
  rw [Usart.gate_of_mem_pins pin (mem_pins hc hpin), u.txPortClock_eq]

end UsartStep

theorem bringUpServices_pinless (plan : Plan) : ∀ c ∈ bringUpServices plan, c.pin? = none := by
  simp [bringUpServices, Service.pin?]

/-- A bring-up and one more call without a pin. -/
theorem pinsClocked_bringUp_pinless (plan : Plan) {c : Service} (hc : c.pin? = none) :
    PinsClocked (bringUpServices plan ++ [c]) := by
  refine .of_pinless fun d hd => ?_
  obtain hd | hd := List.mem_append.mp hd
  · exact bringUpServices_pinless plan d hd
  · obtain rfl := List.mem_singleton.mp hd
    exact hc

/-- A connection enables the clock of the port before anything else. -/
theorem pinsClocked_connect (plan : Plan) (u : Usart) (steps : List UsartStep) :
    PinsClocked (bringUpServices plan ++
      (UsartStep.connect u :: steps).flatMap UsartStep.services) := by
  have hclock : PinsClocked (bringUpServices plan ++ [.enableClock u.txPortClock]) :=
    pinsClocked_bringUp_pinless plan rfl
  have hsplit : bringUpServices plan ++
      (UsartStep.connect u :: steps).flatMap UsartStep.services =
        (bringUpServices plan ++ [.enableClock u.txPortClock]) ++
          ((UsartStep.connect u).services.tail ++ steps.flatMap UsartStep.services) := by
    simp [UsartStep.services]
  rw [hsplit]
  refine hclock.append fun c hc pin hpin => ?_
  have hgate : pin.port.gate = u.txPortClock := by
    obtain hc | hc := List.mem_append.mp hc
    · exact UsartStep.gate_of_pin (List.mem_of_mem_tail hc) hpin u
    · obtain ⟨step, -, hc⟩ := List.mem_flatMap.mp hc
      exact UsartStep.gate_of_pin hc hpin u
  simp [hgate]

/-- A release configures its pins right after its reset. -/
theorem not_pinsClocked_release (plan : Plan) (line : Gate) (pin : Pin) (rest : List Service) :
    ¬ PinsClocked (bringUpServices plan ++ .pulseReset line :: .releasePin pin :: rest) := by
  intro hclocked
  have hmem := hclocked (bringUpServices plan ++ [.pulseReset line]) (.releasePin pin) rest pin
    (by simp) rfl
  simp [bringUpServices] at hmem

section

variable {σ : Type} {h : Handler services σ} {plan : Plan} {platform : Platform} {s t : σ}
  {log : List Log.Record}

/-- The calls of a life, after a bring-up that came to a result. -/
theorem requests_life (hrun : (bringUp plan).run h s = ⟨.ok platform, t, log⟩)
    (steps : List UsartStep) :
    ((life plan (steps.map .usart)).requests h s).map Prod.snd =
      bringUpServices plan ++ (h.chain (steps.flatMap UsartStep.services) t).map Prod.snd := by
  have hcore := sysclk_eq_of_bringUp hrun
  have hlead := (Proc.Asks.bringUp hcore).leads hrun
  rw [(Proc.Asks.life hcore steps).requests_eq, hlead.chain_append, List.map_append,
    hlead.map_chain]

/-- A bring-up, and then any steps with USARTs, on any hardware layer. The
clocks come before the pins exactly when the first step is not a release, or is
one that does not get as far as its pins. -/
theorem pinsClocked_iff (hrun : (bringUp plan).run h s = ⟨.ok platform, t, log⟩)
    (steps : List UsartStep) :
    PinsClocked (((life plan (steps.map .usart)).requests h s).map Prod.snd) ↔
      ∀ u rest, steps = .release u :: rest →
        ¬ ∃ v, h.respond (.pulseReset u.wiring.reset) t = (.ok (), v) := by
  rw [requests_life hrun]
  cases steps with
  | nil =>
      refine iff_of_true ?_ (fun _ _ hrelease => by cases hrelease)
      simpa [Handler.chain] using PinsClocked.of_pinless (bringUpServices_pinless plan)
  | cons step rest =>
  cases step with
  | connect u =>
      refine iff_of_true ?_ (fun _ _ hrelease => by cases hrelease)
      refine (pinsClocked_connect plan u rest).of_isPrefix ?_
      exact (List.prefix_append_right_inj _).mpr (Handler.chain_isPrefix _ t)
  | release u =>
      simp only [List.flatMap_cons, UsartStep.services, List.cons_append, Handler.chain,
        List.map_cons]
      cases hpulse : h.respond (.pulseReset u.wiring.reset) t with
      | mk answer v =>
      cases answer with
      | ok =>
          refine iff_of_false (not_pinsClocked_release plan _ _ _) ?_
          exact fun hnone => hnone u rest rfl ⟨v, hpulse⟩
      | error why =>
          refine iff_of_true (pinsClocked_bringUp_pinless plan rfl) ?_
          rintro _ _ ⟨⟩ ⟨_, hanswer⟩
          rw [hpulse] at hanswer
          cases hanswer

end

/-- Releasing one USART is fine after connecting the other. -/
theorem pinsClocked_connect_release :
    (∃ platform t log,
      (bringUp Plan.board).run (Recorder.handler allFail) [] = ⟨.ok platform, t, log⟩) ∧
    PinsClocked (((life Plan.board [.usart (.connect .usart2), .usart (.release .usart1)]).requests
      (Recorder.handler allFail) []).map Prod.snd) := by
  obtain ⟨platform, t, log, hrun⟩ := Recorder.bringUp_returns allFail
  exact ⟨⟨platform, t, log, hrun⟩,
    (pinsClocked_iff hrun [.connect .usart2, .release .usart1]).mpr nofun⟩

/-- A USART that is released before any was connected has its pins configured
behind a gate that nobody has opened. -/
theorem release_first_unclocked :
    (∃ platform t log,
      (bringUp Plan.board).run (Recorder.handler {}) [] = ⟨.ok platform, t, log⟩) ∧
    ¬ PinsClocked (((life Plan.board [.usart (.release .usart1)]).requests
      (Recorder.handler {}) []).map Prod.snd) :=
  ⟨Recorder.bringUp_returns {}, not_pinsClocked_release Plan.board _ _ [_]⟩

end BringUp
