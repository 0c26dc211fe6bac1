import BringUp.Proofs.BoardLife
import BringUp.Proofs.GatesAndPins

/-!
One step with a USART, on the registers.

* `UsartStep.gates`, `UsartStep.resets`, `UsartStep.pinCode`: what a step opens,
  what it resets, and the code that it leaves in its pins.
* `UsartStep.apply step p`: the part after the step, given that the port has
  its clock.

Main statements: a step comes to that part (`Ensures.usartStep`), and the part
is as the step says, gate by gate, line by line and pin by pin
(`UsartStep.opened_apply`, `UsartStep.asserted_apply`,
`UsartStep.pinCode_apply_of_mem`, `UsartStep.pinCode_apply_of_not_mem`).
-/

namespace BringUp

open Board Clock Hardware

/-! ## One step -/

namespace Part

/-- Both pins of a USART get the code. -/
def setPins (u : Usart) (code : Word) (p : Part) : Part :=
  (p.setPin u.wiring.tx code).setPin u.wiring.rx code

variable {p : Part} {u : Usart} {code : Word} {pin : Pin} {gate line : Gate}

theorem opened_setPins : (p.setPins u code).Opened gate ↔ p.Opened gate := by
  rw [setPins, opened_setPin, opened_setPin]

theorem asserted_setPins : (p.setPins u code).Asserted line ↔ p.Asserted line := by
  rw [setPins, asserted_setPin, asserted_setPin]

theorem pinCode_setPins_of_mem (hcode : ∀ pin ∈ u.pins, pin.slot.Fits code)
    (hpin : pin ∈ u.pins) : (p.setPins u code).pinCode pin = code := by
  have htx : u.wiring.tx ∈ u.pins := by simp [Usart.pins]
  have hrx : u.wiring.rx ∈ u.pins := by simp [Usart.pins]
  have hnumber := Usart.number_lt_of_mem_pins (u := u)
  unfold setPins
  by_cases hsame : pin = u.wiring.rx
  · subst hsame
    exact pinCode_setPin_self (hcode _ hrx)
  · obtain rfl : pin = u.wiring.tx := by simpa [Usart.pins, hsame] using hpin
    rw [pinCode_setPin_of_ne (hnumber _ hrx) (hnumber _ htx) hsame]
    exact pinCode_setPin_self (hcode _ htx)

theorem pinCode_setPins_of_not_mem (hnumber : pin.number < Pin.perPort) (hpin : pin ∉ u.pins) :
    (p.setPins u code).pinCode pin = p.pinCode pin := by
  simp only [Usart.pins, List.mem_cons, List.not_mem_nil, or_false, not_or] at hpin
  have hwired := Usart.number_lt_of_mem_pins (u := u)
  unfold setPins
  rw [pinCode_setPin_of_ne (hwired _ (by simp [Usart.pins])) hnumber hpin.2,
    pinCode_setPin_of_ne (hwired _ (by simp [Usart.pins])) hnumber hpin.1]

end Part

namespace UsartStep

/-- The part after the step, if its port has a clock. -/
def apply : UsartStep → Part → Part
  | .connect u, p =>
      (((p.openGate u.txPortClock).openGate u.rxPortClock).openGate u.wiring.clock).setPins u
        PinSetup.usart.code
  | .release u, p => (p.endReset u.wiring.reset).setPins u PinSetup.floating.code

/-- The gates that the step opens. -/
def gates : UsartStep → List Gate
  | .connect u => [Port.a.gate, u.wiring.clock]
  | .release _ => []

/-- The reset lines that the step leaves released. -/
def resets : UsartStep → List Gate
  | .connect _ => []
  | .release u => [u.wiring.reset]

/-- The code that the step leaves in the pins: an output that the USART drives,
or a floating input. -/
def pinCode : UsartStep → Word
  | .connect _ => 0xB
  | .release _ => 0x4

variable {p : Part} {step : UsartStep} {gate line : Gate} {pin : Pin}

theorem mem_gates :
    gate ∈ step.gates ↔ ∃ u, step = .connect u ∧ (gate = Port.a.gate ∨ gate = u.wiring.clock) := by
  cases step <;> simp [gates]

theorem mem_resets : line ∈ step.resets ↔ ∃ u, step = .release u ∧ line = u.wiring.reset := by
  cases step <;> simp [resets]

theorem opened_apply : (step.apply p).Opened gate ↔ p.Opened gate ∨ gate ∈ step.gates := by
  cases step with
  | connect u =>
      rw [apply, Part.opened_setPins, Part.opened_openGate u.clock_bit_lt, u.txPortClock_eq,
        u.rxPortClock_eq, Part.opened_openGate (by decide), Part.opened_openGate (by decide)]
      simp [gates, or_assoc]
  | release u =>
      rw [apply, Part.opened_setPins, Part.opened_endReset]
      simp [gates]

theorem asserted_apply : (step.apply p).Asserted line ↔ p.Asserted line ∧ line ∉ step.resets := by
  cases step with
  | connect u =>
      rw [apply, Part.asserted_setPins]
      simp only [Part.asserted_openGate]
      simp [resets]
  | release u =>
      rw [apply, Part.asserted_setPins, Part.asserted_endReset]
      simp [resets]

theorem pinCode_apply_of_mem (hpin : pin ∈ step.usart.pins) :
    (step.apply p).pinCode pin = step.pinCode := by
  cases step with
  | connect u => exact Part.pinCode_setPins_of_mem (by cases u <;> decide) hpin
  | release u => exact Part.pinCode_setPins_of_mem (by cases u <;> decide) hpin

theorem pinCode_apply_of_not_mem (hnumber : pin.number < Pin.perPort)
    (hpin : pin ∉ step.usart.pins) : (step.apply p).pinCode pin = p.pinCode pin := by
  cases step with
  | connect u =>
      rw [apply, Part.pinCode_setPins_of_not_mem (u := u) hnumber hpin]
      simp only [Part.pinCode_openGate]
  | release u =>
      rw [apply, Part.pinCode_setPins_of_not_mem (u := u) hnumber hpin, Part.pinCode_endReset]

theorem peek_apply_of_not_switch {r : Register} (hr : ¬r.IsSwitch) :
    (step.apply p).peek r = p.peek r := by
  cases step with
  | connect u =>
      simp only [apply, Part.setPins, Part.peek_setPin_of_not_switch hr,
        Part.peek_openGate_of_not_switch hr]
  | release u =>
      simp only [apply, Part.setPins, Part.peek_setPin_of_not_switch hr,
        Part.peek_endReset_of_not_switch hr]

theorem sameBeside_apply (step : UsartStep) (p : Part) : p.SameBeside (step.apply p) := by
  cases step with
  | connect u => rfl
  | release u => exact (p.sameBeside_endReset u.wiring.reset).trans rfl

end UsartStep

/-! ## The step on the registers -/

namespace Ensures

variable {t : Temper} (ht : t.Unlatched) {patience : Nat} {ceiling : Log.Ceiling} {p : Part}

include ht

/-- Both pins of a USART are configured once their port has its clock. -/
theorem setPins {u : Usart} {setup : PinSetup} {x y : Sequence Unit}
    (hx : onRegisters ceiling x = configurePin u.wiring.tx.port u.wiring.tx setup)
    (hy : onRegisters ceiling y = configurePin u.wiring.rx.port u.wiring.rx setup)
    (hlevel : setup.pullLevel = none) (hclock : p.Opened Port.a.gate) :
    Ensures (simulated t) patience (fun _ => True) (onRegisters ceiling (x >>= fun _ => y)) p
      (fun _ q => q = p.setPins u setup.code) := by
  have htx : u.wiring.tx ∈ u.pins := List.mem_cons_self
  have hrx : u.wiring.rx ∈ u.pins := List.mem_cons_of_mem _ List.mem_cons_self
  have hopen : ∀ pin ∈ u.pins, p.Opened pin.port.gate := fun pin hpin =>
    Usart.gate_of_mem_pins pin hpin ▸ hclock
  rw [onRegisters_bind, hx, hy]
  refine bind (setPin ht (Usart.number_lt_of_mem_pins _ htx) hlevel (hopen _ htx)) ?_
  rintro _ _ rfl
  exact setPin ht (Usart.number_lt_of_mem_pins _ hrx) hlevel
    (Part.opened_setPin.mpr (hopen _ hrx))

/-- A step on the registers. A connection brings the clock of its port; a
release has to find it. -/
theorem usartStep {step : UsartStep}
    (hclock : p.Opened Port.a.gate ∨ Port.a.gate ∈ step.gates) :
    Ensures (simulated t) patience (fun _ => True) (onRegisters ceiling step.perform) p
      (fun _ q => q = step.apply p) := by
  cases step with
  | connect u =>
      refine seqBind (seqLog _ _ _) ?_
      rintro _ p rfl
      refine seqBind (ask (openGate ht (by rw [u.txPortClock_eq]; decide))) ?_
      rintro _ _ rfl
      refine seqBind (ask (openGate ht (by rw [u.rxPortClock_eq]; decide))) ?_
      rintro _ _ rfl
      refine seqBind (ask (openGate ht u.clock_bit_lt)) ?_
      rintro _ _ rfl
      have hport : (((p.openGate u.txPortClock).openGate u.rxPortClock).openGate
          u.wiring.clock).Opened Port.a.gate := by
        rw [Part.opened_openGate u.clock_bit_lt, u.rxPortClock_eq, Part.opened_openGate (by decide)]
        exact .inl (.inr rfl)
      exact setPins ht (onRegisters_ask _ (.configurePin _ _))
        (onRegisters_ask _ (.configurePin _ _)) rfl hport
  | release u =>
      have hport : (p.endReset u.wiring.reset).Opened Port.a.gate := by
        refine Part.opened_endReset.mpr (hclock.resolve_right ?_)
        exact List.not_mem_nil
      refine seqBind (seqLog _ _ _) ?_
      rintro _ p rfl
      refine seqBind (ask (endReset ht u.reset_bit_lt)) ?_
      rintro _ _ rfl
      exact setPins ht (onRegisters_ask _ (.releasePin _)) (onRegisters_ask _ (.releasePin _))
        rfl hport

end Ensures

end BringUp
