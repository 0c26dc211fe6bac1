import BringUp.Proofs.Journals
import BringUp.Proofs.OperatingPoint

/-!
Gates, reset lines and pins as the registers of a part have them.

* `Part.Opened`, `Part.Asserted`, `Part.pinCode`: whether a gate is open or a
  reset line is asserted, and the four bits that configure a pin.
* `Part.openGate`, `Part.endReset`, `Part.setPin`: the part with one of these
  changed.
* `Part.opened_openGate`, `Part.pinCode_setPin_of_ne`, …: what each change does
  to each of them.

Main statements: the drivers make exactly these changes
(`Ensures.openGate`, `Ensures.endReset`, `Ensures.setPin`), and the gates, the
reset lines and the codes are all that there is to their registers
(`Part.peek_enable_ext`, `Part.peek_reset_ext`, `Part.peek_port_ext`).
-/

namespace BringUp

open Clock

/-! ## Single bits -/

namespace Word

theorem getLsbD_or_twoPow (w : Word) {i : Nat} (hi : i < 32) (j : Nat) :
    (w ||| BitVec.twoPow 32 i).getLsbD j = true ↔ w.getLsbD j = true ∨ j = i := by
  simp [BitVec.getLsbD_twoPow, hi, @eq_comm _ i j]

theorem getLsbD_andNot_twoPow (w : Word) (i j : Nat) :
    (w &&& ~~~BitVec.twoPow 32 i).getLsbD j = true ↔ w.getLsbD j = true ∧ j ≠ i := by
  have hlt : w.getLsbD j = true → j < 32 := BitVec.lt_of_getLsbD
  simp only [BitVec.getLsbD_and, BitVec.getLsbD_not, BitVec.getLsbD_twoPow, Bool.and_eq_true,
    Bool.not_eq_true', Bool.and_eq_false_iff, decide_eq_true_eq, decide_eq_false_iff_not]
  refine and_congr_right fun hset => ?_
  have := hlt hset
  omega

/-- Setting bits and clearing them again clears them. -/
theorem or_and_not (w bits : Word) : (w ||| bits) &&& ~~~bits = w &&& ~~~bits := by
  ext i hi
  simp only [BitVec.getElem_and, BitVec.getElem_or, BitVec.getElem_not]
  cases bits[i] <;> simp

end Word

/-! ## Registers apart -/

namespace Register

theorem enable_ne_port (bus : Bus) (port : Port) (half : PortRegister) :
    enable bus ≠ .port port half := by
  cases bus <;> exact nofun

theorem enable_inj {a b : Bus} (h : enable a = enable b) : a = b := by
  cases a <;> cases b <;> first | rfl | cases h

variable {bus : Bus} {r : Register}

theorem enable_ne_reset (h : reset? bus = some r) (other : Bus) : enable other ≠ r := by
  cases bus <;> cases h <;> cases other <;> exact nofun

theorem reset_ne_port (h : reset? bus = some r) (port : Port) (half : PortRegister) :
    r ≠ .port port half := by
  cases bus <;> cases h <;> exact nofun

theorem reset_inj {other : Bus} (h : reset? bus = some r) (h' : reset? other = some r) :
    bus = other := by
  cases bus <;> cases h <;> cases other <;> first | rfl | cases h'

/-- The register holds gates, reset lines or the codes of pins. -/
def IsSwitch (r : Register) : Prop :=
  (∃ bus, r = enable bus) ∨ (∃ bus, reset? bus = some r) ∨
    ∃ port, r = .port port .crl ∨ r = .port port .crh

end Register

/-! ## Where a pin's code is -/

namespace Pin

/-- The register that holds the code: the lower one for pins below 8. -/
def half (pin : Pin) : PortRegister :=
  if pin.number < 8 then .crl else .crh

/-- The four bits of the code. -/
def slot (pin : Pin) : Field where
  mask := 0xF#32 <<< (4 * (pin.number % 8))
  shift := 4 * (pin.number % 8)
  shift_lt := by omega

theorem half_cases (pin : Pin) : pin.half = .crl ∨ pin.half = .crh := by
  unfold half
  split
  · exact .inl rfl
  · exact .inr rfl

theorem configField_eq {pin : Pin} (hpin : pin.number < perPort) :
    configField pin.number = .ok (pin.half, pin.slot) := by
  unfold perPort at hpin
  by_cases hlow : pin.number < 8
  · have hshift : pin.number * 4 = 4 * (pin.number % 8) := by omega
    have hlt : 4 * (pin.number % 8) < 32 := by omega
    simp only [configField, configSlot, half, slot, if_pos hlow, hshift, dif_pos hlt]
  · have hshift : (pin.number - 8) * 4 = 4 * (pin.number % 8) := by omega
    have hlt : 4 * (pin.number % 8) < 32 := by omega
    simp only [configField, configSlot, half, slot, if_neg hlow, hshift, dif_pos hlt]

theorem getLsbD_slot_mask (pin : Pin) (i : Nat) :
    pin.slot.mask.getLsbD i =
      decide (4 * (pin.number % 8) ≤ i ∧ i < 4 * (pin.number % 8) + 4) := by
  have hones : ∀ j, (0xF#32).getLsbD j = decide (j < 4) := by
    intro j
    show (BitVec.ofNat 32 (2 ^ 4 - 1)).getLsbD j = _
    rw [BitVec.getLsbD_ofNat, Nat.testBit_two_pow_sub_one, ← Bool.decide_and]
    exact decide_eq_decide.mpr (by omega)
  simp only [slot, BitVec.getLsbD_shiftLeft, hones]
  rw [Bool.eq_iff_iff]
  simp only [Bool.and_eq_true, Bool.not_eq_true', decide_eq_true_eq, decide_eq_false_iff_not]
  omega

/-- The bits of a code are four neighbouring bits of the word. -/
theorem getLsbD_slot_get (pin : Pin) (w : Word) (j : Nat) :
    (pin.slot.get w).getLsbD j = (decide (j < 4) && w.getLsbD (4 * (pin.number % 8) + j)) := by
  have hshift : pin.slot.shift = 4 * (pin.number % 8) := rfl
  rw [Field.get, BitVec.getLsbD_ushiftRight, BitVec.getLsbD_and, getLsbD_slot_mask, hshift,
    Bool.and_comm]
  congr 1
  exact decide_eq_decide.mpr (by omega)

/-- The codes of a register do not overlap. -/
theorem slot_disjoint {pin other : Pin} (h : pin.number % 8 ≠ other.number % 8) :
    pin.slot.mask &&& other.slot.mask = 0 := by
  refine BitVec.eq_of_getLsbD_eq fun i _ => ?_
  rw [BitVec.getLsbD_and, getLsbD_slot_mask, getLsbD_slot_mask, ← Bool.decide_and,
    BitVec.ofNat_eq_ofNat, BitVec.getLsbD_zero, decide_eq_false_iff_not]
  omega

end Pin

namespace Part

/-! ## What the registers say -/

/-- The gate is open. -/
def Opened (p : Part) (gate : Gate) : Prop :=
  (p.peek (Register.enable gate.bus)).getLsbD gate.bit = true

/-- The reset line is asserted. -/
def Asserted (p : Part) (line : Gate) : Prop :=
  ∃ r, Register.reset? line.bus = some r ∧ (p.peek r).getLsbD line.bit = true

/-- The code that configures the pin. -/
def pinCode (p : Part) (pin : Pin) : Word :=
  pin.slot.get (p.peek (.port pin.port pin.half))

/-! ## What changes them -/

def openGate (gate : Gate) (p : Part) : Part :=
  p.poke (Register.enable gate.bus)
    (p.peek (Register.enable gate.bus) ||| BitVec.twoPow 32 gate.bit)

def endReset (line : Gate) (p : Part) : Part :=
  match Register.reset? line.bus with
  | none => p
  | some r => p.poke r (p.peek r &&& ~~~BitVec.twoPow 32 line.bit)

def setPin (pin : Pin) (code : Word) (p : Part) : Part :=
  p.poke (.port pin.port pin.half) (pin.slot.put code (p.peek (.port pin.port pin.half)))

variable {p : Part} {gate line other : Gate} {pin : Pin} {code : Word}

/-! ### An opened gate -/

theorem opened_openGate (hgate : gate.bit < 32) :
    (p.openGate gate).Opened other ↔ p.Opened other ∨ other = gate := by
  obtain ⟨bus, bit⟩ := gate
  obtain ⟨bus', bit'⟩ := other
  by_cases hbus : bus' = bus
  · subst hbus
    simp only [Opened, openGate, peek_poke_self, Gate.mk.injEq, true_and]
    exact Word.getLsbD_or_twoPow _ hgate bit'
  · have hne : Register.enable bus' ≠ Register.enable bus := fun h => hbus (Register.enable_inj h)
    simp only [Opened, openGate, peek_poke_of_ne p hne, Gate.mk.injEq, hbus, false_and, or_false]

theorem asserted_openGate : (p.openGate gate).Asserted line ↔ p.Asserted line := by
  refine exists_congr fun r => and_congr_right fun hr => ?_
  rw [openGate, peek_poke_of_ne p (Register.enable_ne_reset hr _).symm]

theorem pinCode_openGate : (p.openGate gate).pinCode pin = p.pinCode pin := by
  rw [pinCode, openGate, peek_poke_of_ne p (Register.enable_ne_port _ _ _).symm]
  rfl

/-! ### A reset that is over -/

/-- A reset touches the register that has the line, if there is one. -/
theorem peek_endReset_of_ne {r : Register} (h : ∀ s, Register.reset? line.bus = some s → r ≠ s) :
    (p.endReset line).peek r = p.peek r := by
  unfold endReset
  split
  · rfl
  · next s hs => exact peek_poke_of_ne p (h s hs) _

theorem opened_endReset : (p.endReset line).Opened gate ↔ p.Opened gate := by
  rw [Opened, peek_endReset_of_ne fun r hr => Register.enable_ne_reset hr gate.bus]
  rfl

theorem asserted_endReset :
    (p.endReset line).Asserted other ↔ p.Asserted other ∧ other ≠ line := by
  obtain ⟨bus, bit⟩ := line
  obtain ⟨bus', bit'⟩ := other
  -- A line of another bus is in another register, so only its own bus counts.
  by_cases hbus : bus' = bus
  · subst hbus
    cases hline : Register.reset? bus' with
    | none => simp [Asserted, endReset, hline]
    | some r =>
        simp only [Asserted, endReset, hline, Option.some.injEq, exists_eq_left', peek_poke_self,
          Word.getLsbD_andNot_twoPow, Gate.mk.injEq, true_and, ne_eq]
  · have hne : (⟨bus', bit'⟩ : Gate) ≠ ⟨bus, bit⟩ := fun h => hbus (congrArg Gate.bus h)
    simp only [hne, ne_eq, not_false_eq_true, and_true]
    refine exists_congr fun s => and_congr_right fun hs => ?_
    rw [peek_endReset_of_ne]
    rintro _ hr rfl
    exact hbus (Register.reset_inj hs hr)

theorem pinCode_endReset : (p.endReset line).pinCode pin = p.pinCode pin := by
  rw [pinCode, peek_endReset_of_ne fun r hr => (Register.reset_ne_port hr pin.port pin.half).symm]
  rfl

/-! ### A configured pin -/

theorem opened_setPin : (p.setPin pin code).Opened gate ↔ p.Opened gate := by
  rw [Opened, setPin, peek_poke_of_ne p (Register.enable_ne_port _ _ _)]
  rfl

theorem asserted_setPin : (p.setPin pin code).Asserted line ↔ p.Asserted line := by
  refine exists_congr fun r => and_congr_right fun hr => ?_
  rw [setPin, peek_poke_of_ne p (Register.reset_ne_port hr _ _)]

theorem pinCode_setPin_self (hcode : pin.slot.Fits code) :
    (p.setPin pin code).pinCode pin = code := by
  rw [pinCode, setPin, peek_poke_self, Field.get_put]
  exact hcode

theorem pinCode_setPin_of_ne {pin' : Pin} (hpin : pin.number < Pin.perPort)
    (hpin' : pin'.number < Pin.perPort) (hne : pin' ≠ pin) :
    (p.setPin pin code).pinCode pin' = p.pinCode pin' := by
  unfold Pin.perPort at hpin hpin'
  by_cases hsame : Register.port pin'.port pin'.half = .port pin.port pin.half
  · simp only [Register.port.injEq] at hsame
    obtain ⟨hport, hhalf⟩ := hsame
    have hnumber : pin'.number ≠ pin.number := by
      intro h
      cases pin
      cases pin'
      simp_all
    have hdisjoint : pin.slot.mask &&& pin'.slot.mask = 0 := by
      refine Pin.slot_disjoint ?_
      unfold Pin.half at hhalf
      split at hhalf <;> split at hhalf <;> simp_all <;> omega
    rw [pinCode, setPin, hport, hhalf, peek_poke_self, Field.get_put_of_disjoint hdisjoint]
    simp only [pinCode, hport, hhalf]
  · rw [pinCode, setPin, peek_poke_of_ne p hsame]
    rfl

/-! ### The rest of the part -/

variable {q : Part} {r : Register}

theorem peek_openGate_of_not_switch (hr : ¬r.IsSwitch) : (p.openGate gate).peek r = p.peek r :=
  peek_poke_of_ne p (fun h => hr (.inl ⟨_, h⟩)) _

theorem peek_endReset_of_not_switch (hr : ¬r.IsSwitch) : (p.endReset line).peek r = p.peek r := by
  refine peek_endReset_of_ne ?_
  rintro s hs rfl
  exact hr (.inr (.inl ⟨_, hs⟩))

theorem peek_setPin_of_not_switch (hr : ¬r.IsSwitch) : (p.setPin pin code).peek r = p.peek r := by
  refine peek_poke_of_ne p ?_ _
  rintro rfl
  refine hr (.inr (.inr ⟨pin.port, ?_⟩))
  exact pin.half_cases.imp (congrArg _) (congrArg _)

/-- The parts differ in their registers only. -/
def SameBeside (p q : Part) : Prop :=
  q = { p with registers := q.registers }

theorem sameBeside_endReset (line : Gate) (p : Part) : p.SameBeside (p.endReset line) := by
  unfold endReset
  split <;> rfl

theorem SameBeside.trans {s : Part} (h : p.SameBeside q) (h' : q.SameBeside s) :
    p.SameBeside s := by
  rw [SameBeside, h', h]

/-- Beside their registers there is nothing to tell them apart. -/
theorem SameBeside.ext {s : Part} (hq : p.SameBeside q) (hs : p.SameBeside s)
    (h : ∀ r, q.peek r = s.peek r) : q = s := by
  rw [hq, hs, Table.ext_get h]

/-! ### Registers by what they say -/

theorem peek_enable_ext {bus : Bus} (h : ∀ bit, p.Opened ⟨bus, bit⟩ ↔ q.Opened ⟨bus, bit⟩) :
    p.peek (Register.enable bus) = q.peek (Register.enable bus) :=
  BitVec.eq_of_getLsbD_eq fun bit _ => Bool.eq_iff_iff.mpr (h bit)

theorem peek_reset_ext {bus : Bus} {r : Register} (hr : Register.reset? bus = some r)
    (h : ∀ bit, p.Asserted ⟨bus, bit⟩ ↔ q.Asserted ⟨bus, bit⟩) : p.peek r = q.peek r := by
  refine BitVec.eq_of_getLsbD_eq fun bit _ => Bool.eq_iff_iff.mpr ?_
  simpa [Asserted, hr] using h bit

/-- Each bit of a configuration register belongs to the code of a pin. -/
theorem peek_port_ext {port : Port}
    (h : ∀ n, n < Pin.perPort → p.pinCode ⟨port, n⟩ = q.pinCode ⟨port, n⟩) {half : PortRegister}
    (hhalf : half = .crl ∨ half = .crh) :
    p.peek (.port port half) = q.peek (.port port half) := by
  have hslot : ∀ n, n < Pin.perPort → (⟨port, n⟩ : Pin).half = half → ∀ j, j < 4 →
      (p.peek (.port port half)).getLsbD (4 * (n % 8) + j) =
        (q.peek (.port port half)).getLsbD (4 * (n % 8) + j) := by
    rintro n hn rfl j hj
    have hbit := congrArg (fun w : Word => w.getLsbD j) (h n hn)
    simpa [pinCode, Pin.getLsbD_slot_get, hj] using hbit
  -- Bit i is in the code of pin i / 4, or of pin 8 + i / 4 in the upper register.
  refine BitVec.eq_of_getLsbD_eq fun i hi => ?_
  have hindex : i = 4 * (i / 4) + i % 4 := by omega
  obtain rfl | rfl := hhalf
  case inl =>
    have hbit := hslot (i / 4) (by unfold Pin.perPort; omega) (if_pos (by simp only; omega))
      (i % 4) (by omega)
    rwa [Nat.mod_eq_of_lt (by omega), ← hindex] at hbit
  case inr =>
    have hbit := hslot (8 + i / 4) (by unfold Pin.perPort; omega) (if_neg (by simp only; omega))
      (i % 4) (by omega)
    rwa [Nat.add_mod_left, Nat.mod_eq_of_lt (by omega), ← hindex] at hbit

end Part

/-! ## The drivers -/

theorem Clock.Gate.mask_eq {gate : Gate} (h : gate.bit < 32) :
    gate.mask = .ok (BitVec.twoPow 32 gate.bit) := by
  simp [mask, Checked.bit, Checked.shiftLeft, h, BitVec.twoPow]

namespace Pin

variable {pin : Pin}

theorem mask_eq (hpin : pin.number < perPort) : pin.mask = .ok (BitVec.twoPow 16 pin.number) := by
  unfold perPort at hpin
  simp [mask, Checked.bit, Checked.shiftLeft, hpin, BitVec.twoPow]

/-- A mask of the port's sixteen pins in a word of its registers. -/
theorem setWidth_mask (hpin : pin.number < perPort) :
    (BitVec.twoPow 16 pin.number).setWidth 32 = BitVec.twoPow 32 pin.number := by
  unfold perPort at hpin
  refine BitVec.eq_of_getLsbD_eq fun i hi => ?_
  simp only [BitVec.getLsbD_setWidth, BitVec.getLsbD_twoPow]
  by_cases h : pin.number = i
  · simp [h]
    omega
  · simp [h]

/-- The writes that latch the direction of a pull. -/
def pullWrites (pin : Pin) : Option Bool → List (Register × Word)
  | some true => [(.port pin.port .bsrr, BitVec.twoPow 32 pin.number)]
  | some false => [(.port pin.port .brr, BitVec.twoPow 32 pin.number)]
  | none => []

end Pin

/-- The part with these words in these registers, one after the other. -/
def Part.pokes (p : Part) (writes : List (Register × Word)) : Part :=
  writes.foldl (fun q write => q.poke write.1 write.2) p

namespace Part

variable {t : Temper} {p : Part}

theorem enable_open (bus : Bus) : p.ignores t (Register.enable bus) = false := by
  cases bus <;> rfl

theorem reset_open {bus : Bus} {r : Register} (h : Register.reset? bus = some r) :
    p.ignores t r = false := by
  cases bus <;> cases h <;> rfl

/-- A port takes writes if it has its clock, or does not need one. -/
theorem port_open {port : Port} (h : t.portsGated = false ∨ p.Opened port.gate)
    (half : PortRegister) : p.ignores t (.port port half) = false := by
  have hbit : t.portsGated = false ∨ (p.peek .apb2enr).getLsbD (2 + port.number) = true := h
  obtain hgated | hclock := hbit
  · simp only [ignores, hgated, Bool.false_and]
  · simp only [ignores, hclock, Bool.not_true, Bool.and_false]

end Part

namespace Performs

open Hardware

variable {t : Temper} (ht : t.Unlatched) {patience : Nat} {p : Part}

include ht

/-- One write opens a gate. -/
theorem openGate {gate : Gate} (hgate : gate.bit < 32) :
    Performs (simulated t) patience (enableClock gate) p ()
      [(Register.enable gate.bus,
        p.peek (Register.enable gate.bus) ||| BitVec.twoPow 32 gate.bit)]
      (p.openGate gate) := by
  have hplain := Register.enable_plain gate.bus
  rw [enableClock_eq (Gate.mask_eq hgate)]
  exact bind (modifyPlain hplain ht (Part.enable_open _) _) (bind (readPlain hplain) done)

/-- A reset is two writes: the line is asserted, and then released. -/
theorem endReset {line : Gate} (hline : line.bit < 32) {r : Register}
    (hr : Register.reset? line.bus = some r) :
    Performs (simulated t) patience (pulseReset line) p ()
      [(r, p.peek r ||| BitVec.twoPow 32 line.bit),
        (r, p.peek r &&& ~~~BitVec.twoPow 32 line.bit)]
      (p.endReset line) := by
  have hplain := Register.reset_plain hr
  have hset : Performs (simulated t) patience
      (Driver.setBits r (BitVec.twoPow 32 line.bit)) p () _ _ :=
    modifyPlain hplain ht (Part.reset_open hr) _
  have hclear : Performs (simulated t) patience
      (Driver.clearBits r (BitVec.twoPow 32 line.bit))
      (p.poke r (p.peek r ||| BitVec.twoPow 32 line.bit)) () _ _ :=
    modifyPlain hplain ht (Part.reset_open hr) _
  rw [Part.peek_poke_self, Part.poke_poke, Word.or_and_not] at hclear
  simp only [pulseReset, Part.endReset, hr]
  exact bind (ofExcept (Gate.mask_eq hline)) (bind hset hclear)

/-- A pin takes one write of its code, and one of the direction if it is pulled. -/
theorem setPin {pin : Pin} (setup : PinSetup) (hpin : pin.number < Pin.perPort)
    (hclock : t.portsGated = false ∨ p.Opened pin.port.gate) :
    Performs (simulated t) patience (configurePin pin.port pin setup) p ()
      ((.port pin.port pin.half,
          pin.slot.put setup.code (p.peek (.port pin.port pin.half))) ::
        pin.pullWrites setup.pullLevel)
      ((p.setPin pin setup.code).pokes (pin.pullWrites setup.pullLevel)) := by
  have hport : ∀ half, (p.setPin pin setup.code).ignores t (.port pin.port half) = false :=
    Part.port_open (hclock.imp_right Part.opened_setPin.mpr)
  have hcode : Performs (simulated t) patience
      (Driver.writeField (.port pin.port pin.half) pin.slot setup.code) p () _
      (p.setPin pin setup.code) :=
    modifyPlain (Register.port_plain _ _) ht (Part.port_open hclock _) _
  have hpull : Performs (simulated t) patience (latchPull pin.port pin setup.pullLevel)
      (p.setPin pin setup.code) () (pin.pullWrites setup.pullLevel)
      ((p.setPin pin setup.code).pokes (pin.pullWrites setup.pullLevel)) := by
    unfold latchPull
    refine bind (ofExcept (Pin.mask_eq hpin)) ?_
    rw [Pin.setWidth_mask hpin]
    cases setup.pullLevel with
    | none => exact done
    | some level =>
        cases level with
        | true => exact writePlain (Register.port_plain _ _) ht (hport _) _
        | false => exact writePlain (Register.port_plain _ _) ht (hport _) _
  unfold configurePin
  rw [if_neg (not_not_intro rfl)]
  exact bind (ofExcept (Pin.configField_eq hpin)) (bind hcode hpull)

end Performs

namespace Ensures

open Hardware

variable {t : Temper} (ht : t.Unlatched) {patience : Nat} {p : Part}

include ht

theorem openGate {gate : Gate} (hgate : gate.bit < 32) :
    Ensures (simulated t) patience (fun _ => True) (enableClock gate) p
      (fun _ q => q = p.openGate gate) :=
  (Performs.openGate ht hgate).ensures.imp fun _ _ h => h.2

theorem endReset {line : Gate} (hline : line.bit < 32) :
    Ensures (simulated t) patience (fun _ => True) (pulseReset line) p
      (fun _ q => q = p.endReset line) := by
  cases hr : Register.reset? line.bus with
  | none =>
      simp only [pulseReset, Part.endReset, hr]
      exact log rfl
  | some r => exact (Performs.endReset ht hline hr).ensures.imp fun _ _ h => h.2

/-- A pin is configured if its port has its clock. -/
theorem setPin {pin : Pin} {setup : PinSetup} (hpin : pin.number < Pin.perPort)
    (hlevel : setup.pullLevel = none) (hclock : p.Opened pin.port.gate) :
    Ensures (simulated t) patience (fun _ => True) (configurePin pin.port pin setup) p
      (fun _ q => q = p.setPin pin setup.code) := by
  have hset : Performs (simulated t) patience (configurePin pin.port pin setup) p () _ _ :=
    .setPin ht setup hpin (.inr hclock)
  rw [hlevel] at hset
  exact hset.ensures.imp fun _ _ h => h.2

end Ensures

end BringUp
