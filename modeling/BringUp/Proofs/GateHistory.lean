import BringUp.Proofs.GatesAndPins
import BringUp.Proofs.Steps

/-!
Clock gates accumulate, and resets are always released.

* `Word.ofBits bits`: the word in which these bits are set.
* `GateStep`: a gate is opened, or a reset line is pulsed.
* `GateStep.enabled bus steps`, `GateStep.pulsed bus steps`: the bits that the
  steps open or pulse on a bus.
* `GatesLeft steps p q`: the part `q` is `p` as the steps leave it, each register
  read off the steps at once.

Main statement: any sequence of steps leads there, and so does any other sequence
of the same steps, in any order and however often each of them is taken; a bit
that no register has is a fault before any access (`gateSteps_accumulate`).

The registers are read bit by bit. A gate is open if it was or if one of the steps
opens it, and a line is asserted if it was and none of them pulses it. Neither
mentions an order.
-/

namespace BringUp

open Board Clock Hardware

/-! ## Sets of bits -/

/-- The word in which these bits are set. -/
def Word.ofBits (bits : List Nat) : Word :=
  bits.foldr (fun i w => BitVec.twoPow 32 i ||| w) 0

theorem Word.getLsbD_ofBits (bits : List Nat) {i : Nat} (hi : i < 32) :
    (ofBits bits).getLsbD i = true ↔ i ∈ bits := by
  induction bits with
  | nil => simp [ofBits]
  | cons j bits ih =>
      have hcons : ofBits (j :: bits) = BitVec.twoPow 32 j ||| ofBits bits := rfl
      rw [hcons, BitVec.getLsbD_or, BitVec.getLsbD_twoPow, Bool.or_eq_true, ih, List.mem_cons]
      refine or_congr_left ?_
      simp only [Bool.and_eq_true, decide_eq_true_eq]
      omega

/-- It does not matter in which order the bits come, or how often. -/
theorem Word.ofBits_congr {bits bits' : List Nat} (h : ∀ i, i ∈ bits' ↔ i ∈ bits) :
    ofBits bits' = ofBits bits := by
  refine BitVec.eq_of_getLsbD_eq fun i hi => Bool.eq_iff_iff.mpr ?_
  rw [getLsbD_ofBits bits' hi, getLsbD_ofBits bits hi, h]

/-! ## Steps -/

/-- A step with a gate or a reset line. -/
inductive GateStep where
  | enable (gate : Gate)
  | pulse (line : Gate)
  deriving DecidableEq, Repr

namespace GateStep

/-- The gate, or the line. -/
def gate : GateStep → Gate
  | enable gate => gate
  | pulse line => line

def perform : GateStep → Sequence Unit
  | enable gate => Sequence.ask (.enableClock gate)
  | pulse line => Sequence.ask (.pulseReset line)

/-- The bit that the step opens on a bus. -/
def enabledBit? (bus : Bus) : GateStep → Option Nat
  | enable gate => if gate.bus = bus then some gate.bit else none
  | pulse _ => none

/-- The bit that the step pulses on a bus. -/
def pulsedBit? (bus : Bus) : GateStep → Option Nat
  | enable _ => none
  | pulse line => if line.bus = bus then some line.bit else none

/-- The bits that the steps open on a bus. -/
def enabled (bus : Bus) (steps : List GateStep) : List Nat :=
  steps.filterMap (enabledBit? bus)

/-- The bits that the steps pulse on a bus. -/
def pulsed (bus : Bus) (steps : List GateStep) : List Nat :=
  steps.filterMap (pulsedBit? bus)

/-- The part after the step. -/
def apply : GateStep → Part → Part
  | enable gate, p => p.openGate gate
  | pulse line, p => p.endReset line

variable {step : GateStep} {steps others : List GateStep} {bus : Bus} {bit : Nat}
  {p : Part} {gate line : Gate} {r : Register}

theorem enabledBit?_eq_some : enabledBit? bus step = some bit ↔ step = enable ⟨bus, bit⟩ := by
  cases step with
  | enable gate =>
      obtain ⟨bus', bit'⟩ := gate
      simp [enabledBit?]
  | pulse line => simp [enabledBit?]

theorem pulsedBit?_eq_some : pulsedBit? bus step = some bit ↔ step = pulse ⟨bus, bit⟩ := by
  cases step with
  | enable gate => simp [pulsedBit?]
  | pulse line =>
      obtain ⟨bus', bit'⟩ := line
      simp [pulsedBit?]

theorem mem_enabled : bit ∈ enabled bus steps ↔ enable ⟨bus, bit⟩ ∈ steps := by
  simp [enabled, enabledBit?_eq_some]

theorem mem_pulsed : bit ∈ pulsed bus steps ↔ pulse ⟨bus, bit⟩ ∈ steps := by
  simp [pulsed, pulsedBit?_eq_some]

theorem onRegisters_perform (ceiling : Log.Ceiling) (step : GateStep) :
    onRegisters ceiling step.perform =
      match step with
      | enable gate => enableClock gate
      | pulse line => pulseReset line := by
  cases step with
  | enable gate => exact onRegisters_ask ceiling (.enableClock gate)
  | pulse line => exact onRegisters_ask ceiling (.pulseReset line)

/-! ### One step -/

theorem opened_apply (hbit : step.gate.bit < 32) :
    (step.apply p).Opened gate ↔ p.Opened gate ∨ enable gate = step := by
  cases step with
  | enable gate' =>
      have hgate : gate'.bit < 32 := hbit
      simp [apply, Part.opened_openGate hgate]
  | pulse line => simp [apply, Part.opened_endReset]

theorem asserted_apply :
    (step.apply p).Asserted line ↔ p.Asserted line ∧ pulse line ≠ step := by
  cases step with
  | enable gate => simp [apply, Part.asserted_openGate]
  | pulse line' => simp [apply, Part.asserted_endReset]

theorem peek_apply_of_ne (henable : ∀ bus, r ≠ Register.enable bus)
    (hreset : ∀ bus, Register.reset? bus ≠ some r) : (step.apply p).peek r = p.peek r := by
  cases step with
  | enable gate => exact Part.peek_poke_of_ne p (henable gate.bus) _
  | pulse line =>
      refine Part.peek_endReset_of_ne ?_
      rintro s hs rfl
      exact hreset _ hs

theorem sameBeside_apply (step : GateStep) (p : Part) : p.SameBeside (step.apply p) := by
  cases step with
  | enable gate => rfl
  | pulse line => exact p.sameBeside_endReset line

/-! ### Any number of steps -/

/-- The part after the steps, one after the other. -/
def applyAll (steps : List GateStep) (p : Part) : Part :=
  steps.foldl (fun q step => step.apply q) p

theorem opened_applyAll (hsteps : ∀ step ∈ steps, step.gate.bit < 32) :
    (applyAll steps p).Opened gate ↔ p.Opened gate ∨ enable gate ∈ steps := by
  have h : (applyAll steps p).Opened gate ↔ p.Opened gate ∨ ∃ step ∈ steps, enable gate = step :=
    foldl_or (Part.Opened · gate) fun step hmem _ => opened_apply (hsteps step hmem)
  rw [h, exists_eq_right']

theorem asserted_applyAll :
    (applyAll steps p).Asserted line ↔ p.Asserted line ∧ pulse line ∉ steps := by
  have h : (applyAll steps p).Asserted line ↔
      p.Asserted line ∧ ∀ step ∈ steps, pulse line ≠ step :=
    foldl_and (Part.Asserted · line) fun _ _ _ => asserted_apply
  rw [h, List.forall_mem_ne]

theorem sameBeside_applyAll (steps : List GateStep) (p : Part) :
    p.SameBeside (applyAll steps p) :=
  List.foldlRecOn steps _ rfl fun q hq step _ => hq.trans (sameBeside_apply step q)

end GateStep

/-! ## Where the steps lead -/

/-- The part `q` is `p` as the steps leave it. -/
structure GatesLeft (steps : List GateStep) (p q : Part) : Prop where
  /-- What was open is open, and so is what a step opened. -/
  enables : ∀ bus, q.peek (Register.enable bus) =
    p.peek (Register.enable bus) ||| Word.ofBits (GateStep.enabled bus steps)
  /-- Of the lines that were asserted, those that a step pulsed are released. -/
  resets : ∀ bus r, Register.reset? bus = some r →
    q.peek r = p.peek r &&& ~~~Word.ofBits (GateStep.pulsed bus steps)
  /-- The other registers hold what they did. -/
  others : ∀ r, (∀ bus, r ≠ Register.enable bus) → (∀ bus, Register.reset? bus ≠ some r) →
    q.peek r = p.peek r
  beside : p.SameBeside q

namespace GatesLeft

variable {steps others : List GateStep} {p q s : Part}

theorem applyAll (hsteps : ∀ step ∈ steps, step.gate.bit < 32) (p : Part) :
    GatesLeft steps p (GateStep.applyAll steps p) where
  enables bus := by
    refine BitVec.eq_of_getLsbD_eq fun bit hbit => Bool.eq_iff_iff.mpr ?_
    have hgate : (GateStep.applyAll steps p).Opened ⟨bus, bit⟩ ↔ _ :=
      GateStep.opened_applyAll hsteps
    rw [BitVec.getLsbD_or, Bool.or_eq_true, Word.getLsbD_ofBits _ hbit, GateStep.mem_enabled]
    exact hgate
  resets bus r hr := by
    refine BitVec.eq_of_getLsbD_eq fun bit hbit => Bool.eq_iff_iff.mpr ?_
    have hline : (GateStep.applyAll steps p).Asserted ⟨bus, bit⟩ ↔ _ :=
      GateStep.asserted_applyAll
    simp only [Part.Asserted, hr, Option.some.injEq, exists_eq_left'] at hline
    rw [hline, BitVec.getLsbD_and, BitVec.getLsbD_not, ← GateStep.mem_pulsed,
      ← Word.getLsbD_ofBits _ hbit]
    simp [hbit]
  others r henable hreset := by
    exact foldl_view (Part.peek · r) fun _ _ _ => GateStep.peek_apply_of_ne henable hreset
  beside := GateStep.sameBeside_applyAll steps p

/-- Which steps there are is all that counts. -/
theorem unique (hq : GatesLeft steps p q) (hs : GatesLeft others p s)
    (hsame : ∀ step, step ∈ others ↔ step ∈ steps) : s = q := by
  refine hs.beside.ext hq.beside fun r => ?_
  by_cases henable : ∃ bus, r = Register.enable bus
  case pos =>
    obtain ⟨bus, rfl⟩ := henable
    rw [hq.enables, hs.enables, Word.ofBits_congr]
    intro bit
    rw [GateStep.mem_enabled, GateStep.mem_enabled, hsame]
  by_cases hreset : ∃ bus, Register.reset? bus = some r
  case pos =>
    obtain ⟨bus, hr⟩ := hreset
    rw [hq.resets bus r hr, hs.resets bus r hr, Word.ofBits_congr]
    intro bit
    rw [GateStep.mem_pulsed, GateStep.mem_pulsed, hsame]
  case neg =>
    have hother : (∀ bus, r ≠ Register.enable bus) ∧ ∀ bus, Register.reset? bus ≠ some r :=
      ⟨fun bus h => henable ⟨bus, h⟩, fun bus h => hreset ⟨bus, h⟩⟩
    rw [hq.others r hother.1 hother.2, hs.others r hother.1 hother.2]

end GatesLeft

/-! ## The steps on the registers -/

section

variable {t : Temper} (ht : t.Unlatched) {patience : Nat} {ceiling : Log.Ceiling} {p : Part}

include ht

theorem Ensures.gateStep {step : GateStep} (hbit : step.gate.bit < 32) :
    Ensures (simulated t) patience (fun _ => True) (onRegisters ceiling step.perform) p
      (fun _ q => q = step.apply p) := by
  rw [GateStep.onRegisters_perform]
  cases step with
  | enable gate => exact openGate ht hbit
  | pulse line => exact endReset ht hbit

theorem Ensures.gateSteps {steps : List GateStep} (hsteps : ∀ step ∈ steps, step.gate.bit < 32) :
    Ensures (simulated t) patience (fun _ => True)
      (onRegisters ceiling (forM steps GateStep.perform)) p
      (fun _ q => q = GateStep.applyAll steps p) :=
  seqSteps (I := fun _ => True) trivial (fun _ _ _ _ => trivial) fun _ hmem _ _ =>
    gateStep ht (hsteps _ hmem)

end

namespace GateStep

variable {σ : Type} (d : Device σ) (patience : Nat) (ceiling : Log.Ceiling)

/-- The AHB has no reset lines: a pulse is a record. -/
theorem run_pulse_ahb {line : Gate} (hline : Register.reset? line.bus = none) (s : σ) :
    (onRegisters ceiling (pulse line).perform).run (d.handler patience) s =
        ⟨.ok (), s, [⟨.warn, Log.Target.clocks,
          "no reset line for AHB bit " ++ toString line.bit⟩]⟩ ∧
      (onRegisters ceiling (pulse line).perform).history d patience s = [] := by
  have hrecord : onRegisters ceiling (pulse line).perform =
      Driver.log .warn Log.Target.clocks ("no reset line for AHB bit " ++ toString line.bit) := by
    rw [onRegisters_perform]
    simp only [pulseReset, hline]
  rw [hrecord]
  exact ⟨rfl, rfl⟩

/-- A bit that no register has is a fault, and nothing is accessed. -/
theorem run_of_le {step : GateStep} (hbit : 32 ≤ step.gate.bit)
    (hregister : ∀ line, step = pulse line → Register.reset? line.bus ≠ none) (s : σ) :
    (onRegisters ceiling step.perform).run (d.handler patience) s =
        ⟨.error (.fault (.overflow .shiftLeft)), s, []⟩ ∧
      (onRegisters ceiling step.perform).history d patience s = [] := by
  have hmask : step.gate.mask = .error (.overflow .shiftLeft) := by
    simp [Gate.mask, Checked.bit, Checked.shiftLeft, Nat.not_lt.mpr hbit]
  have hfault : onRegisters ceiling step.perform = Proc.fault (.overflow .shiftLeft) := by
    rw [onRegisters_perform]
    cases step with
    | enable gate =>
        have hgate : gate.mask = .error (.overflow .shiftLeft) := hmask
        simp only [enableClock, hgate]
        rfl
    | pulse line =>
        have hline : line.mask = .error (.overflow .shiftLeft) := hmask
        obtain ⟨r, hr⟩ := Option.ne_none_iff_exists'.mp (hregister line rfl)
        simp only [pulseReset, hr, hline]
        rfl
  rw [hfault]
  exact ⟨rfl, rfl⟩

end GateStep

/-- Clock gates accumulate, and resets are always released.

Any sequence of steps, from any part without stuck bits, runs to its end. Each
enable register then has the bits that it had and those that the steps opened,
and each reset register those that it had without the ones that the steps pulsed.
Any other sequence of the same steps leads to the same part. A pulse makes two
writes, which set the line's bit and clear it. On the AHB it makes no access,
whatever the bit. Elsewhere a bit that no register has is a fault, whatever the
device, and there is no access. -/
theorem gateSteps_accumulate {t : Temper} (ht : t.Unlatched) (patience : Nat)
    (ceiling : Log.Ceiling) (p : Part) (steps : List GateStep)
    (hsteps : ∀ step ∈ steps, step.gate.bit < 32) :
    (∃ q log,
      (onRegisters ceiling (forM steps GateStep.perform)).run ((simulated t).handler patience) p =
        ⟨.ok (), q, log⟩ ∧
      GatesLeft steps p q ∧
      ∀ others : List GateStep, (∀ step, step ∈ others ↔ step ∈ steps) → ∃ log',
        (onRegisters ceiling (forM others GateStep.perform)).run
          ((simulated t).handler patience) p = ⟨.ok (), q, log'⟩) ∧
    (∀ line r, line.bit < 32 → Register.reset? line.bus = some r → ∀ s : Part,
      journal ((onRegisters ceiling (GateStep.pulse line).perform).history
        (simulated t) patience s) =
        [(r, s.peek r ||| BitVec.twoPow 32 line.bit),
          (r, s.peek r &&& ~~~BitVec.twoPow 32 line.bit)]) ∧
    (∀ {σ : Type} (d : Device σ) (s : σ) (line : Gate), line.bus = .ahb →
      (∃ log, (onRegisters ceiling (GateStep.pulse line).perform).run (d.handler patience) s =
          ⟨.ok (), s, log⟩) ∧
        (onRegisters ceiling (GateStep.pulse line).perform).history d patience s = []) ∧
    ∀ {σ : Type} (d : Device σ) (s : σ) (step : GateStep), 32 ≤ step.gate.bit →
      (∀ line, step = .pulse line → line.bus ≠ .ahb) →
      (onRegisters ceiling step.perform).run (d.handler patience) s =
          ⟨.error (.fault (.overflow .shiftLeft)), s, []⟩ ∧
        (onRegisters ceiling step.perform).history d patience s = [] := by
  have hrun : ∀ list : List GateStep, (∀ step ∈ list, step.gate.bit < 32) →
      ∃ q log, (onRegisters ceiling (forM list GateStep.perform)).run
        ((simulated t).handler patience) p = ⟨.ok (), q, log⟩ ∧ GatesLeft list p q := by
    intro list hlist
    obtain ⟨log, hlog⟩ := (Ensures.gateSteps ht hlist).run_eq
    exact ⟨_, log, hlog, .applyAll hlist p⟩
  refine ⟨?_, ?_, ?_, ?_⟩
  · obtain ⟨q, log, hlog, hq⟩ := hrun steps hsteps
    refine ⟨q, log, hlog, hq, fun others hsame => ?_⟩
    obtain ⟨s, log', hlog', hs⟩ := hrun others fun step hmem => hsteps step ((hsame step).mp hmem)
    exact ⟨log', hq.unique hs hsame ▸ hlog'⟩
  · intro line r hline hr s
    rw [GateStep.onRegisters_perform]
    exact (Performs.endReset ht hline hr).journal_eq
  · intro σ d s line hline
    have hnone : Register.reset? line.bus = none := by rw [hline]; rfl
    obtain ⟨hlog, hhistory⟩ := GateStep.run_pulse_ahb d patience ceiling hnone s
    exact ⟨⟨_, hlog⟩, hhistory⟩
  · intro σ d s step hbit hbus
    refine GateStep.run_of_le d patience ceiling hbit (fun line hline hnone => ?_) s
    refine hbus line hline ?_
    cases h : line.bus <;> rw [h] at hnone <;> first | rfl | cases hnone

/-- Two gates are opened and a line that was asserted is pulsed, in one order and
in another one with a repetition. -/
theorem gateSteps_accumulate_prompt :
    Temper.prompt.Unlatched ∧
    ∃ q log log',
      (onRegisters Log.Ceiling.all (forM [.enable ⟨.apb2, 2⟩, .pulse ⟨.apb2, 14⟩,
        .enable ⟨.apb2, 14⟩] GateStep.perform)).run ((simulated Temper.prompt).handler 0)
        ((Part.powerOn fun _ => 0).poke .apb2rstr 0x00004010) = ⟨.ok (), q, log⟩ ∧
      (onRegisters Log.Ceiling.all (forM [.enable ⟨.apb2, 14⟩, .pulse ⟨.apb2, 14⟩,
        .enable ⟨.apb2, 2⟩, .pulse ⟨.apb2, 14⟩] GateStep.perform)).run
        ((simulated Temper.prompt).handler 0)
        ((Part.powerOn fun _ => 0).poke .apb2rstr 0x00004010) = ⟨.ok (), q, log'⟩ ∧
      q.peek .apb2enr = 0x00004004 ∧ q.peek .apb2rstr = 0x00000010 ∧
      (onRegisters Log.Ceiling.all (GateStep.pulse ⟨.ahb, 40⟩).perform).history
        (simulated Temper.prompt) 0 q = [] ∧
      (onRegisters Log.Ceiling.all (GateStep.enable ⟨.ahb, 40⟩).perform).history
        (simulated Temper.prompt) 0 q = [] := by
  obtain ⟨⟨q, log, hrun, hq, hsame⟩, -, hahb, hfault⟩ :=
    gateSteps_accumulate Temper.prompt_unlatched 0 Log.Ceiling.all
      ((Part.powerOn fun _ => 0).poke .apb2rstr 0x00004010)
      [.enable ⟨.apb2, 2⟩, .pulse ⟨.apb2, 14⟩, .enable ⟨.apb2, 14⟩] (by decide)
  obtain ⟨log', hother⟩ := hsame [.enable ⟨.apb2, 14⟩, .pulse ⟨.apb2, 14⟩,
    .enable ⟨.apb2, 2⟩, .pulse ⟨.apb2, 14⟩] (by grind)
  refine ⟨Temper.prompt_unlatched, q, log, log', hrun, hother, ?_, ?_, ?_, ?_⟩
  · exact (hq.enables .apb2).trans (by decide +kernel)
  · exact (hq.resets .apb2 .apb2rstr rfl).trans (by decide +kernel)
  · exact (hahb (simulated Temper.prompt) q ⟨.ahb, 40⟩ rfl).2
  · exact (hfault (simulated Temper.prompt) q (.enable ⟨.ahb, 40⟩) (by decide) nofun).2

end BringUp
