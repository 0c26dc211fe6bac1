import BringUp.Proofs.Steps
import BringUp.Proofs.UsartSteps

/-!
What any history of connecting and releasing USARTs makes of a part.

* `UsartStep.applyAll steps p`: the part after the steps.
* `UsartStep.history u steps`, `UsartStep.last? u steps`: the steps of one
  USART among those of all, and the last of them.
* `Settled steps p q`: the part `q` is `p` as the steps leave it, with the
  gates, the reset lines and the pins each read off the steps at once.

Main statements: a sequence of steps that starts with a connection runs to its
end and leaves the part settled, and steps of different USARTs may trade places
(`usartSteps_settle`). What is settled is settled in one way
(`Settled.unique`): it depends on the history of each USART, and not on how
they were mixed.

A release finds its port with a clock because a connection came before. That is
the invariant that a run keeps: no step closes a gate.
-/

namespace BringUp

open Board Clock Hardware

/-! ## Any number of steps -/

namespace UsartStep

/-- The part after the steps, one after the other. -/
def applyAll (steps : List UsartStep) (p : Part) : Part :=
  steps.foldl (fun q step => step.apply q) p

/-- The steps of one USART. -/
def history (u : Usart) (steps : List UsartStep) : List UsartStep :=
  steps.filter (·.usart = u)

/-- The last step of one USART. -/
def last? (u : Usart) (steps : List UsartStep) : Option UsartStep :=
  (history u steps).getLast?

variable {p : Part} {gate line : Gate} {pin : Pin} {steps : List UsartStep}

theorem opened_applyAll :
    (applyAll steps p).Opened gate ↔ p.Opened gate ∨ ∃ step ∈ steps, gate ∈ step.gates :=
  foldl_or (Part.Opened · gate) fun _ _ _ => opened_apply

theorem asserted_applyAll :
    (applyAll steps p).Asserted line ↔
      p.Asserted line ∧ ∀ step ∈ steps, line ∉ step.resets :=
  foldl_and (Part.Asserted · line) fun _ _ _ => asserted_apply

/-- The last step of a USART has the last word on its pins. -/
theorem pinCode_applyAll {u : Usart} (hpin : pin ∈ u.pins) :
    (applyAll steps p).pinCode pin = ((last? u steps).map pinCode).getD (p.pinCode pin) := by
  refine foldl_last usart (Part.pinCode · pin) ?_ ?_
  · intro step _ hu q
    exact pinCode_apply_of_mem (hu ▸ hpin)
  · intro step _ hu q
    exact pinCode_apply_of_not_mem (Usart.number_lt_of_mem_pins _ hpin)
      (Usart.pins_disjoint (Ne.symm hu) _ hpin)

theorem pinCode_applyAll_of_not_mem (hnumber : pin.number < Pin.perPort)
    (hpin : ∀ u : Usart, pin ∉ u.pins) : (applyAll steps p).pinCode pin = p.pinCode pin :=
  foldl_view (Part.pinCode · pin) fun _ _ _ =>
    pinCode_apply_of_not_mem hnumber (hpin _)

theorem peek_applyAll_of_not_switch {r : Register} (hr : ¬r.IsSwitch) :
    (applyAll steps p).peek r = p.peek r :=
  foldl_view (Part.peek · r) fun _ _ _ => peek_apply_of_not_switch hr

theorem sameBeside_applyAll (steps : List UsartStep) (p : Part) :
    p.SameBeside (applyAll steps p) :=
  List.foldlRecOn steps _ rfl fun q hq step _ => hq.trans (sameBeside_apply step q)

theorem history_swap {a b : UsartStep} (h : a.usart ≠ b.usart) (u : Usart)
    (before after : List UsartStep) :
    history u (before ++ a :: b :: after) = history u (before ++ b :: a :: after) :=
  filter_swap h before after

/-- Every step is in the history of its USART. -/
theorem mem_iff_of_history_eq {others : List UsartStep}
    (hsame : ∀ u, history u others = history u steps) (step : UsartStep) :
    step ∈ others ↔ step ∈ steps := by
  have hown : ∀ list : List UsartStep, step ∈ history step.usart list ↔ step ∈ list := by
    simp [history]
  rw [← hown others, hsame, hown]

end UsartStep

namespace Ensures

variable {t : Temper} (ht : t.Unlatched) {patience : Nat} {ceiling : Log.Ceiling} {p : Part}

include ht

/-- The steps on the registers, once the port has its clock. -/
theorem usartSteps (steps : List UsartStep) (hclock : p.Opened Port.a.gate) :
    Ensures (simulated t) patience (fun _ => True)
      (onRegisters ceiling (forM steps UsartStep.perform)) p
      (fun _ q => q = UsartStep.applyAll steps p) :=
  seqSteps (I := (Part.Opened · Port.a.gate)) hclock
    (fun _ _ _ hq => UsartStep.opened_apply.mpr (.inl hq)) fun _ _ _ hq => usartStep ht (.inl hq)

/-- The steps on the registers, the first of them being a connection. -/
theorem usartSteps_connect (u : Usart) (steps : List UsartStep) :
    Ensures (simulated t) patience (fun _ => True)
      (onRegisters ceiling (forM (.connect u :: steps) UsartStep.perform)) p
      (fun _ q => q = UsartStep.applyAll (.connect u :: steps) p) := by
  have hport : Port.a.gate ∈ (UsartStep.connect u).gates := List.mem_cons_self
  rw [List.forM_cons]
  refine seqBind (usartStep ht (.inr hport)) ?_
  rintro _ _ rfl
  exact usartSteps ht steps (UsartStep.opened_apply.mpr (.inr hport))

end Ensures

/-! ## Where a history leads -/

/-- The part `q` is `p` as the steps leave it, the first of them being a
connection. -/
structure Settled (steps : List UsartStep) (p q : Part) : Prop where
  /-- The pins of a USART are as its last step left them. -/
  used : ∀ u step, UsartStep.last? u steps = some step →
    ∀ pin ∈ u.pins, q.pinCode pin = step.pinCode
  unused : ∀ u, UsartStep.last? u steps = none →
    ∀ pin ∈ u.pins, q.pinCode pin = p.pinCode pin
  /-- No other pin of any port is touched. -/
  otherPins : ∀ pin : Pin, pin.number < Pin.perPort → (∀ u : Usart, pin ∉ u.pins) →
    q.pinCode pin = p.pinCode pin
  /-- The gates of the port and of every USART that was ever connected have
  been opened. -/
  gates : ∀ gate, q.Opened gate ↔
    p.Opened gate ∨ gate = Port.a.gate ∨ ∃ u, .connect u ∈ steps ∧ gate = u.wiring.clock
  /-- The reset lines of every USART that was ever released have been
  released. -/
  lines : ∀ line, q.Asserted line ↔
    p.Asserted line ∧ ∀ u, .release u ∈ steps → line ≠ u.wiring.reset
  /-- The other registers hold what they did. -/
  others : ∀ r : Register, ¬r.IsSwitch → q.peek r = p.peek r
  beside : p.SameBeside q

theorem Settled.applyAll (u : Usart) (steps : List UsartStep) (p : Part) :
    Settled (.connect u :: steps) p (UsartStep.applyAll (.connect u :: steps) p) where
  used v step hlast pin hpin := by
    rw [UsartStep.pinCode_applyAll hpin, hlast]
    rfl
  unused v hlast pin hpin := by
    rw [UsartStep.pinCode_applyAll hpin, hlast]
    rfl
  otherPins pin hnumber hpin := UsartStep.pinCode_applyAll_of_not_mem hnumber hpin
  gates gate := by
    rw [UsartStep.opened_applyAll]
    refine or_congr_right ⟨?_, ?_⟩
    · rintro ⟨step, hstep, hgate⟩
      obtain ⟨v, rfl, hport | hclock⟩ := UsartStep.mem_gates.mp hgate
      · exact .inl hport
      · exact .inr ⟨v, hstep, hclock⟩
    · rintro (hport | ⟨v, hv, hclock⟩)
      · exact ⟨_, List.mem_cons_self, UsartStep.mem_gates.mpr ⟨u, rfl, .inl hport⟩⟩
      · exact ⟨_, hv, UsartStep.mem_gates.mpr ⟨v, rfl, .inr hclock⟩⟩
  lines line := by
    rw [UsartStep.asserted_applyAll]
    refine and_congr_right fun _ => ⟨?_, ?_⟩
    · rintro hline v hv rfl
      exact hline _ hv (UsartStep.mem_resets.mpr ⟨v, rfl, rfl⟩)
    · rintro hline step hstep hmem
      obtain ⟨v, rfl, hreset⟩ := UsartStep.mem_resets.mp hmem
      exact hline v hstep hreset
  others r hr := UsartStep.peek_applyAll_of_not_switch hr
  beside := UsartStep.sameBeside_applyAll _ p

namespace Settled

variable {steps others : List UsartStep} {p q s : Part}

/-- The pins depend on the history of their USART. -/
theorem pinCode_eq (hq : Settled steps p q) (hs : Settled others p s)
    (hsame : ∀ u, UsartStep.history u others = UsartStep.history u steps) {pin : Pin}
    (hnumber : pin.number < Pin.perPort) : s.pinCode pin = q.pinCode pin := by
  by_cases hwired : ∃ u : Usart, pin ∈ u.pins
  case pos =>
    obtain ⟨u, hpin⟩ := hwired
    have hlast : UsartStep.last? u others = UsartStep.last? u steps :=
      congrArg List.getLast? (hsame u)
    cases hstep : UsartStep.last? u steps with
    | none => rw [hq.unused u hstep pin hpin, hs.unused u (hlast.trans hstep) pin hpin]
    | some step =>
        rw [hq.used u step hstep pin hpin, hs.used u step (hlast.trans hstep) pin hpin]
  case neg =>
    have hpin : ∀ u : Usart, pin ∉ u.pins := fun u h => hwired ⟨u, h⟩
    rw [hq.otherPins pin hnumber hpin, hs.otherPins pin hnumber hpin]

/-- The history of each USART is all that counts, not how they were mixed. -/
theorem unique (hq : Settled steps p q) (hs : Settled others p s)
    (hsame : ∀ u, UsartStep.history u others = UsartStep.history u steps) : s = q := by
  have hmem := UsartStep.mem_iff_of_history_eq hsame
  refine hs.beside.ext hq.beside fun r => ?_
  by_cases hr : r.IsSwitch
  case neg => rw [hq.others r hr, hs.others r hr]
  case pos =>
    obtain ⟨bus, rfl⟩ | ⟨bus, hreset⟩ | ⟨port, hport⟩ := hr
    · refine Part.peek_enable_ext fun bit => ?_
      simp only [hq.gates, hs.gates, hmem]
    · refine Part.peek_reset_ext hreset fun bit => ?_
      simp only [hq.lines, hs.lines, hmem]
    · have hext : ∀ half, half = .crl ∨ half = .crh →
          s.peek (.port port half) = q.peek (.port port half) := fun half =>
        Part.peek_port_ext fun n hn => hq.pinCode_eq hs hsame hn
      obtain rfl | rfl := hport
      · exact hext .crl (.inl rfl)
      · exact hext .crh (.inr rfl)

end Settled

/-- Connecting and releasing USARTs, in any order and any number of times.

If the first step is a connection, then the sequence runs to its end, and the
part is settled afterwards. From then on steps of different USARTs commute:
where they trade places, the part is left in the same state. -/
theorem usartSteps_settle {t : Temper} (ht : t.Unlatched) (patience : Nat)
    (ceiling : Log.Ceiling) (p : Part) (u : Usart) (steps : List UsartStep) :
    (∃ q log,
      (onRegisters ceiling (forM (.connect u :: steps) UsartStep.perform)).run
        ((simulated t).handler patience) p = ⟨.ok (), q, log⟩ ∧
      Settled (.connect u :: steps) p q) ∧
    ∀ before a b after, steps = before ++ a :: b :: after → a.usart ≠ b.usart →
      ((onRegisters ceiling (forM (.connect u :: steps) UsartStep.perform)).run
        ((simulated t).handler patience) p).state =
      ((onRegisters ceiling
        (forM (.connect u :: (before ++ b :: a :: after)) UsartStep.perform)).run
        ((simulated t).handler patience) p).state := by
  have hrun : ∀ list : List UsartStep, ∃ q log,
      (onRegisters ceiling (forM (.connect u :: list) UsartStep.perform)).run
        ((simulated t).handler patience) p = ⟨.ok (), q, log⟩ ∧
      Settled (.connect u :: list) p q := by
    intro list
    have hsteps : Ensures (simulated t) patience (fun _ => True)
        (onRegisters ceiling (forM (.connect u :: list) UsartStep.perform)) p
        (fun _ q => q = UsartStep.applyAll (.connect u :: list) p) :=
      .usartSteps_connect ht u list
    obtain ⟨_, q, log, hlist, rfl⟩ := hsteps.returns
    exact ⟨_, log, hlist, .applyAll u list p⟩
  refine ⟨hrun steps, ?_⟩
  rintro before a b after rfl hne
  obtain ⟨q, _, hleft, hq⟩ := hrun (before ++ a :: b :: after)
  obtain ⟨s, _, hright, hs⟩ := hrun (before ++ b :: a :: after)
  rw [hleft, hright]
  refine hs.unique hq fun v => ?_
  exact UsartStep.history_swap hne v (.connect u :: before) after

/-- On a part that gates its ports: the one USART comes and goes, the other one
stays, in whatever order the two are. -/
theorem usartSteps_settle_prompt :
    Temper.prompt.Unlatched ∧
    (∃ q log,
      (onRegisters Log.Ceiling.all (forM [.connect .usart1, .connect .usart2, .release .usart1]
        UsartStep.perform)).run
        ((simulated Temper.prompt).handler 0) (Part.powerOn fun _ => 0) = ⟨.ok (), q, log⟩ ∧
      q.pinCode ⟨.a, 9⟩ = 0x4 ∧ q.pinCode ⟨.a, 2⟩ = 0xB) ∧
    ((onRegisters Log.Ceiling.all (forM [.connect .usart1, .connect .usart2, .release .usart1]
      UsartStep.perform)).run
      ((simulated Temper.prompt).handler 0) (Part.powerOn fun _ => 0)).state =
    ((onRegisters Log.Ceiling.all (forM [.connect .usart1, .release .usart1, .connect .usart2]
      UsartStep.perform)).run
      ((simulated Temper.prompt).handler 0) (Part.powerOn fun _ => 0)).state := by
  obtain ⟨⟨q, log, hrun, hq⟩, hswap⟩ := usartSteps_settle Temper.prompt_unlatched 0
    Log.Ceiling.all (Part.powerOn fun _ => 0) .usart1 [.connect .usart2, .release .usart1]
  have htx1 := hq.used .usart1 (.release .usart1) rfl ⟨.a, 9⟩ (by decide)
  have htx2 := hq.used .usart2 (.connect .usart2) rfl ⟨.a, 2⟩ (by decide)
  exact ⟨Temper.prompt_unlatched, ⟨q, log, hrun, htx1, htx2⟩, hswap [] _ _ [] rfl (by decide)⟩

end BringUp
