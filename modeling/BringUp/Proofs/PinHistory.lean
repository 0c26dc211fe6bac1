import BringUp.Proofs.GatesAndPins
import BringUp.Proofs.Steps

/-!
The pins of all ports as a store.

* `PinStep`: one call on a pin; `PinStep.setup` is how the pin is operated from
  then on.
* `PinStep.pullWrites`: the write that goes with a pulled input.
* `PinStep.apply step p`: the part after the call.

Main statement: after any sequence of calls each pin has the code of its last
setup, each call makes one write of a code and one of a direction if it pulls an
input, and calls on different pins may trade places; a pin that no port has is a
fault before any access (`pinSteps_store`).

Eighty pins share ten registers. What one call writes is the whole register, so
the point is that the codes in it do not overlap, and that each bit of it belongs
to the code of one pin.
-/

namespace BringUp

open Board Hardware

/-- A call on a pin. -/
inductive PinStep where
  /-- The pin gets this setup. -/
  | configure (pin : Pin) (setup : PinSetup)
  /-- The pin goes back to its state after reset. -/
  | release (pin : Pin)
  deriving DecidableEq, Repr

/-! ## Codes -/

namespace PinSetup

theorem code_lt (setup : PinSetup) : setup.code.toNat < 16 := by
  obtain ⟨mode, pull, speed⟩ := setup
  cases mode <;> cases pull <;> cases speed <;> decide

/-- A code has four bits. -/
theorem getLsbD_code (setup : PinSetup) {j : Nat} (hj : 4 ≤ j) :
    setup.code.getLsbD j = false := by
  refine Nat.testBit_lt_two_pow (Nat.lt_of_lt_of_le setup.code_lt ?_)
  exact Nat.pow_le_pow_right (by decide : 0 < 2) hj

end PinSetup

/-- The code of a setup fits into the place of any pin. -/
theorem Pin.slot_fits (pin : Pin) (setup : PinSetup) : pin.slot.Fits setup.code := by
  show pin.slot.get (setup.code <<< (4 * (pin.number % 8))) = setup.code
  refine BitVec.eq_of_getLsbD_eq fun j hj => ?_
  rw [Pin.getLsbD_slot_get, BitVec.getLsbD_shiftLeft]
  by_cases hlow : j < 4
  · have hbelow : 4 * (pin.number % 8) + j < 32 := by omega
    simp [hlow, hbelow]
  · simp [hlow, setup.getLsbD_code (Nat.not_lt.mp hlow)]

namespace PinStep

/-! ## One call -/

def pin : PinStep → Pin
  | configure pin _ => pin
  | release pin => pin

/-- How the pin is operated from then on. -/
def setup : PinStep → PinSetup
  | configure _ setup => setup
  | release _ => .floating

def perform : PinStep → Sequence Unit
  | configure pin setup => Sequence.ask (.configurePin pin setup)
  | release pin => Sequence.ask (.releasePin pin)

/-- The write that selects the direction of a pulled input. -/
def pullWrites (step : PinStep) : List (Register × Word) :=
  match step.setup.mode, step.setup.pull with
  | .input, .up => [(.port step.pin.port .bsrr, BitVec.twoPow 32 step.pin.number)]
  | .input, .down => [(.port step.pin.port .brr, BitVec.twoPow 32 step.pin.number)]
  | _, _ => []

/-- The part after the call. -/
def apply (step : PinStep) (p : Part) : Part :=
  (p.setPin step.pin step.setup.code).pokes step.pullWrites

variable {step : PinStep} {steps : List PinStep} {p : Part} {pin : Pin}

theorem onRegisters_perform (ceiling : Log.Ceiling) (step : PinStep) :
    onRegisters ceiling step.perform = configurePin step.pin.port step.pin step.setup := by
  cases step with
  | configure pin setup => exact onRegisters_ask ceiling (.configurePin pin setup)
  | release pin => exact onRegisters_ask ceiling (.releasePin pin)

theorem pullWrites_eq (step : PinStep) :
    step.pin.pullWrites step.setup.pullLevel = step.pullWrites := by
  unfold pullWrites PinSetup.pullLevel
  split <;> simp_all [Pin.pullWrites]

/-- A direction is no code. -/
theorem pinCode_pullWrites (step : PinStep) (p : Part) (pin : Pin) :
    (p.pokes step.pullWrites).pinCode pin = p.pinCode pin := by
  have hother : ∀ r v, r ≠ Register.port pin.port pin.half →
      (p.poke r v).pinCode pin = p.pinCode pin := by
    intro r v hr
    rw [Part.pinCode, Part.peek_poke_of_ne p hr.symm]
    rfl
  unfold pullWrites
  split
  · exact hother _ _ (by obtain h | h := pin.half_cases <;> simp [h])
  · exact hother _ _ (by obtain h | h := pin.half_cases <;> simp [h])
  · rfl

theorem pinCode_apply_self : (step.apply p).pinCode step.pin = step.setup.code := by
  rw [apply, pinCode_pullWrites, Part.pinCode_setPin_self (step.pin.slot_fits step.setup)]

theorem pinCode_apply_of_ne (hstep : step.pin.number < Pin.perPort)
    (hpin : pin.number < Pin.perPort) (hne : step.pin ≠ pin) :
    (step.apply p).pinCode pin = p.pinCode pin := by
  rw [apply, pinCode_pullWrites, Part.pinCode_setPin_of_ne hstep hpin hne.symm]

/-! ## Any number of calls -/

/-- The part after the calls, one after the other. -/
def applyAll (steps : List PinStep) (p : Part) : Part :=
  steps.foldl (fun q step => step.apply q) p

/-- The last call on a pin has the last word on its code. -/
theorem pinCode_applyAll (hsteps : ∀ step ∈ steps, step.pin.number < Pin.perPort)
    (hpin : pin.number < Pin.perPort) :
    (applyAll steps p).pinCode pin =
      ((lastOf PinStep.pin pin steps).map (·.setup.code)).getD (p.pinCode pin) := by
  refine foldl_last PinStep.pin (Part.pinCode · pin) ?_ ?_
  · intro step _ hstep q
    subst hstep
    exact pinCode_apply_self
  · intro step hmem hne q
    exact pinCode_apply_of_ne (hsteps step hmem) hpin hne

end PinStep

/-! ## The calls on the registers -/

theorem Performs.pinStep {t : Temper} (ht : t.Unlatched) (hports : t.portsGated = false)
    {patience : Nat} {ceiling : Log.Ceiling} {step : PinStep} {p : Part}
    (hpin : step.pin.number < Pin.perPort) :
    Performs (simulated t) patience (onRegisters ceiling step.perform) p ()
      ((.port step.pin.port step.pin.half,
          step.pin.slot.put step.setup.code (p.peek (.port step.pin.port step.pin.half))) ::
        step.pullWrites)
      (step.apply p) := by
  rw [PinStep.onRegisters_perform, PinStep.apply, ← PinStep.pullWrites_eq]
  exact setPin ht step.setup hpin (.inl hports)

theorem Ensures.pinSteps {t : Temper} (ht : t.Unlatched) (hports : t.portsGated = false)
    {patience : Nat} {ceiling : Log.Ceiling} {steps : List PinStep} {p : Part}
    (hsteps : ∀ step ∈ steps, step.pin.number < Pin.perPort) :
    Ensures (simulated t) patience (fun _ => True)
      (onRegisters ceiling (forM steps PinStep.perform)) p
      (fun _ q => q = PinStep.applyAll steps p) := by
  refine seqSteps (I := fun _ => True) trivial (fun _ _ _ _ => trivial) ?_
  intro step hmem q _
  exact (Performs.pinStep ht hports (hsteps step hmem)).ensures.imp fun _ _ h => h.2

/-- A pin that no port has is a fault, and the part is not touched. -/
theorem PinStep.run_of_le {σ : Type} (d : Device σ) (patience : Nat) (ceiling : Log.Ceiling)
    {step : PinStep} (hpin : Pin.perPort ≤ step.pin.number) (s : σ) :
    (onRegisters ceiling step.perform).run (d.handler patience) s =
        ⟨.error (.fault (.overflow .shiftLeft)), s, []⟩ ∧
      (onRegisters ceiling step.perform).history d patience s = [] := by
  have hfield : Pin.configField step.pin.number = .error (.overflow .shiftLeft) := by
    unfold Pin.perPort at hpin
    have hhigh : ¬step.pin.number < 8 := by omega
    have hshift : ¬(step.pin.number - 8) * 4 < 32 := by omega
    simp only [Pin.configField, Pin.configSlot, if_neg hhigh, dif_neg hshift]
  have hfault : onRegisters ceiling step.perform = Proc.fault (.overflow .shiftLeft) := by
    rw [PinStep.onRegisters_perform, configurePin, if_neg (not_not_intro rfl), hfield]
    rfl
  rw [hfault]
  exact ⟨rfl, rfl⟩

/-- The pins of all ports are a store.

Any sequence of calls on pins, from any part whose ports need no clock, runs to
its end. Each pin then has the code of the last setup that it was given, or the
one that it had. Each call makes one write of the pin's code, and after it one
write of the pin's bit if the pin is a pulled input. Neighbouring calls on
different pins may trade places. On a pin that no port has, a call is a fault,
whatever the device, and it makes no access. -/
theorem pinSteps_store {t : Temper} (ht : t.Unlatched) (hports : t.portsGated = false)
    (patience : Nat) (ceiling : Log.Ceiling) (p : Part) (steps : List PinStep)
    (hsteps : ∀ step ∈ steps, step.pin.number < Pin.perPort) :
    (∃ q log,
      (onRegisters ceiling (forM steps PinStep.perform)).run ((simulated t).handler patience) p =
        ⟨.ok (), q, log⟩ ∧
      ∀ pin : Pin, pin.number < Pin.perPort →
        q.pinCode pin =
          ((lastOf PinStep.pin pin steps).map (·.setup.code)).getD (p.pinCode pin)) ∧
    (∀ step ∈ steps, ∀ s : Part,
      journal ((onRegisters ceiling step.perform).history (simulated t) patience s) =
        (.port step.pin.port step.pin.half,
          step.pin.slot.put step.setup.code (s.peek (.port step.pin.port step.pin.half))) ::
        step.pullWrites) ∧
    (∀ before a b after, steps = before ++ a :: b :: after → a.pin ≠ b.pin →
      ∀ port half, half = .crl ∨ half = .crh →
        ((onRegisters ceiling (forM steps PinStep.perform)).run
          ((simulated t).handler patience) p).state.peek (.port port half) =
        ((onRegisters ceiling (forM (before ++ b :: a :: after) PinStep.perform)).run
          ((simulated t).handler patience) p).state.peek (.port port half)) ∧
    ∀ {σ : Type} (d : Device σ) (s : σ) (step : PinStep), Pin.perPort ≤ step.pin.number →
      (onRegisters ceiling step.perform).run (d.handler patience) s =
          ⟨.error (.fault (.overflow .shiftLeft)), s, []⟩ ∧
        (onRegisters ceiling step.perform).history d patience s = [] := by
  have hrun : ∀ list : List PinStep, (∀ step ∈ list, step.pin.number < Pin.perPort) →
      ∃ log, (onRegisters ceiling (forM list PinStep.perform)).run
        ((simulated t).handler patience) p = ⟨.ok (), PinStep.applyAll list p, log⟩ := by
    intro list hlist
    exact (Ensures.pinSteps ht hports hlist).run_eq
  refine ⟨?_, ?_, ?_, fun d s step hpin => PinStep.run_of_le d patience ceiling hpin s⟩
  · obtain ⟨log, hlog⟩ := hrun steps hsteps
    exact ⟨_, log, hlog, fun pin hpin => PinStep.pinCode_applyAll hsteps hpin⟩
  · intro step hmem s
    exact (Performs.pinStep ht hports (hsteps step hmem)).journal_eq
  · intro before a b after heq hne port half hhalf
    have hswapped : ∀ step ∈ before ++ b :: a :: after, step.pin.number < Pin.perPort := by
      intro step hmem
      refine hsteps step ?_
      rw [heq]
      exact ((List.Perm.swap a b after).append_left before).mem_iff.mp hmem
    obtain ⟨log, hlog⟩ := hrun steps hsteps
    obtain ⟨log', hlog'⟩ := hrun _ hswapped
    rw [hlog, hlog']
    refine Part.peek_port_ext (fun n hn => ?_) hhalf
    rw [PinStep.pinCode_applyAll hsteps hn, PinStep.pinCode_applyAll hswapped hn, heq,
      lastOf_swap hne]

/-- A part whose ports need no clock. -/
def Temper.ungated : Temper :=
  { Temper.prompt with portsGated := false }

/-- A pin is pulled up, its neighbour is driven, and the first one is released
again; the next pin keeps the code that it had. -/
theorem pinSteps_store_ungated :
    Temper.ungated.Unlatched ∧ Temper.ungated.portsGated = false ∧
    ∃ q log,
      (onRegisters Log.Ceiling.all (forM [.configure ⟨.a, 9⟩ ⟨.input, .up, .low⟩,
        .configure ⟨.a, 8⟩ .usart, .release ⟨.a, 9⟩] PinStep.perform)).run
        ((simulated Temper.ungated).handler 0)
        ((Part.powerOn fun _ => 0).poke (.port .a .crh) 0x33333333) = ⟨.ok (), q, log⟩ ∧
      q.pinCode ⟨.a, 9⟩ = 0x4 ∧ q.pinCode ⟨.a, 8⟩ = 0xB ∧ q.pinCode ⟨.a, 10⟩ = 0x3 ∧
      journal ((onRegisters Log.Ceiling.all
        (PinStep.configure ⟨.a, 9⟩ ⟨.input, .up, .low⟩).perform).history
        (simulated Temper.ungated) 0
        ((Part.powerOn fun _ => 0).poke (.port .a .crh) 0x33333333)) =
        [(.port .a .crh, 0x33333383), (.port .a .bsrr, 0x00000200)] ∧
      (onRegisters Log.Ceiling.all (PinStep.release ⟨.a, 16⟩).perform).history
        (simulated Temper.ungated) 0 q = [] := by
  have hungated : Temper.ungated.Unlatched := fun _ => rfl
  obtain ⟨⟨q, log, hrun, hcodes⟩, hwrites, -, hfault⟩ := pinSteps_store hungated rfl 0
    Log.Ceiling.all ((Part.powerOn fun _ => 0).poke (.port .a .crh) 0x33333333)
    [.configure ⟨.a, 9⟩ ⟨.input, .up, .low⟩, .configure ⟨.a, 8⟩ .usart, .release ⟨.a, 9⟩]
    (by decide)
  refine ⟨hungated, rfl, q, log, hrun, ?_, ?_, ?_, ?_, ?_⟩
  · exact hcodes ⟨.a, 9⟩ (by decide)
  · exact hcodes ⟨.a, 8⟩ (by decide)
  · exact (hcodes ⟨.a, 10⟩ (by decide)).trans (by decide +kernel)
  · exact (hwrites _ List.mem_cons_self _).trans (by decide +kernel)
  · exact (hfault (simulated Temper.ungated) q (.release ⟨.a, 16⟩) (by decide)).2

end BringUp
