import BringUp.Proofs.CoreRate
import BringUp.Proofs.Journals
import BringUp.Proofs.LiveRates

/-!
The console's clock after a successful bring-up.

The check of a plan has upper limits only, and the board's core frequency is
compared with the clock in front of the bus dividers. A bus may be as slow as the
dividers can make it, and a USART on a bus of less than half the baud rate gets the
divisor zero, which is the nearest one.

* `BusPlan.usartDivider`: the divider of the bus that a USART is on.
* `Console.setup`: the writes that set a USART up.

Main statement: after a bring-up that reached its target, each USART gets the
nearest divisor, which fits its register, and which is zero if and only if the
dividers in front of the USART make more than 1024 together
(`bringUp_console_divisor`); a plan with such dividers is accepted and reaches
its target (`slow_console_reaches_target`).
-/

namespace BringUp

open Clock Board Hardware

namespace Clock

/-- The divider of the bus that the USART is on. -/
def BusPlan.usartDivider (b : BusPlan) (u : Usart) : ApbDivider :=
  match u.wiring.clock.bus with
  | .apb2 => b.apb2
  | .apb1 | .ahb => b.apb1

/-- A plan that names all bus clocks brings the USART its share of the system
clock. -/
theorem Plan.busClockHz_applied {p : Plan} (hall : ∀ c, p.buses.named.names c = true)
    (u : Usart) :
    u.busClockHz p.applied.rates =
      p.rates.sysclk / (p.buses.ahb.divisor * (p.buses.usartDivider u).divisor) := by
  have hbuses : p.buses.applied = p.buses := by
    simp only [BusPlan.applied, hall, if_true]
  have hrates : u.busClockHz p.applied.rates = u.busClockHz p.rates := by
    rw [applied, hbuses]
    cases u <;> rfl
  rw [hrates, ← Nat.div_div_eq_div_mul]
  cases u <;> rfl

/-- At the board's frequency, dividers leave a USART half of the console's baud
rate if and only if they make no more than 1024. -/
theorem half_baud_le_iff (ahb : AhbDivider) (apb : ApbDivider) :
    Console.baud / 2 ≤ coreHz / (ahb.divisor * apb.divisor) ↔
      ahb.divisor * apb.divisor ≤ 1024 := by
  cases ahb <;> cases apb <;> decide

end Clock

namespace Hardware.Console

/-- The writes that set a USART up with a divisor. -/
def setup (u : Usart) (divisor : Word) : List (Register × Word) :=
  [(.usart u .cr1, 0), (.usart u .cr2, 0), (.usart u .cr3, 0), (.usart u .brr, divisor),
    (.usart u .cr1, enabled ||| transmitter)]

/-- A USART is set up by five writes, on every device. -/
theorem start_performs {σ : Type} (d : Device σ) (patience : Nat) (u : Usart) {clock n : Nat}
    (hn : divisor clock baud = .ok n) (s : σ) :
    ∃ t, Performs d patience (start u clock) s () (setup u (BitVec.ofNat 32 n)) t :=
  ⟨_, .bind (.write _ _) (.bind (.write _ _) (.bind (.write _ _)
    (.bind (.ofExcept hn) (.bind (.write _ _) (.write _ _)))))⟩

/-- At the rates of a part each USART can be set up. The divisor fits the sixteen
bits of its register, and is zero if the clock is too slow. -/
theorem start_of_live {σ : Type} (d : Device σ) (patience : Nat) {rates : Rates}
    (hlive : rates.Live) (u : Usart) (s : σ) :
    ∃ divisor t, Performs d patience (start u (u.busClockHz rates)) s () (setup u divisor) t ∧
      divisor.toNat < 0x10000 ∧ (divisor ≠ 0 ↔ baud / 2 ≤ u.busClockHz rates) := by
  obtain ⟨hdivisor, hfits⟩ := divisor_of_live hlive u
  obtain ⟨t, hstart⟩ := start_performs d patience u hdivisor s
  obtain ⟨divisor, hword⟩ : ∃ w : Word, w = BitVec.ofNat 32 (quotient (u.busClockHz rates) baud) :=
    ⟨_, rfl⟩
  have htoNat : divisor.toNat = quotient (u.busClockHz rates) baud := by
    rw [hword, BitVec.toNat_ofNat]
    exact Nat.mod_eq_of_lt (Nat.lt_trans hfits (by decide))
  rw [← hword] at hstart
  refine ⟨divisor, t, hstart, htoNat ▸ hfits, ?_⟩
  rw [← quotient_pos_iff, ← htoNat, Nat.pos_iff_ne_zero]
  exact not_congr BitVec.toNat_inj.symm

end Hardware.Console

/-- What the console is set up with. Take any plan that names all four bus clocks,
and any part in any state. If the bring-up reaches its target, then the rates can
be read back, and on them each USART can be set up; the divisor fits the sixteen
bits of its register, and it is zero if and only if the USART's clock is slower
than half the baud rate. On a part without stuck bits that is so if and only if
the dividers in front of it make more than 1024 together. -/
theorem bringUp_console_divisor {t : Temper} {patience : Nat} {ceiling : Log.Ceiling}
    {plan : Plan} {p q : Part} {platform : Platform} {log : List Log.Record}
    (hall : ∀ c, plan.buses.named.names c = true)
    (hrun : (onRegisters ceiling (bringUp plan)).run ((simulated t).handler patience) p =
      ⟨.ok platform, q, log⟩)
    (hreached : platform.report.targetReached = true) :
    ∃ live last, liveRates.run ((simulated t).handler patience) q = ⟨.ok live, last, []⟩ ∧
      ∀ u : Usart, ∃ divisor fin,
        Performs (simulated t) patience (Console.start u (u.busClockHz live)) last ()
          (Console.setup u divisor) fin ∧
        divisor.toNat < 0x10000 ∧
        (divisor ≠ 0 ↔ Console.baud / 2 ≤ u.busClockHz live) ∧
        (t.Unlatched → (divisor ≠ 0 ↔
          plan.buses.ahb.divisor * (plan.buses.usartDivider u).divisor ≤ 1024)) := by
  refine ⟨q.rates, _, liveRates_run t patience q, fun u => ?_⟩
  obtain ⟨divisor, fin, hstart, hfits, hzero⟩ := Console.start_of_live (simulated t) patience
    (Rates.ofRegisters_live (q.peek .cfgr) (q.peek .bdcr)) u ((q.tick .cfgr).tick .bdcr)
  refine ⟨divisor, fin, hstart, hfits, hzero, fun ht => hzero.trans ?_⟩
  by_cases hcore : plan.rates.sysclk = coreHz
  · obtain ⟨_, platform', q', log', hrun', _, hplan⟩ :=
      bringUp_carries ht patience ceiling hcore (p := p) (.inl (hall .sysclk))
    rw [hrun] at hrun'
    cases hrun'
    have hclock : u.busClockHz q.rates = u.busClockHz plan.applied.rates := by
      rw [(hplan hreached).1.rates]
      cases u <;> rfl
    change _ ≤ u.busClockHz q.rates ↔ _
    rw [hclock, Plan.busClockHz_applied hall, hcore]
    exact half_baud_le_iff _ _
  · rw [bringUp_of_ne hcore] at hrun
    cases hrun

/-- The board's plan on a part at power-on: both USARTs get a divisor. -/
theorem bringUp_console_divisor_board :
    (∀ c, Plan.board.buses.named.names c = true) ∧
    ∃ platform q log live last,
      (onRegisters .all (bringUp .board)).run ((simulated .prompt).handler 0)
        (.powerOn Part.bootVector) = ⟨.ok platform, q, log⟩ ∧
      platform.report.targetReached = true ∧
      liveRates.run ((simulated .prompt).handler 0) q = ⟨.ok live, last, []⟩ ∧
      ∀ u : Usart, ∃ divisor fin,
        Performs (simulated .prompt) 0 (Console.start u (u.busClockHz live)) last ()
          (Console.setup u divisor) fin ∧
        divisor.toNat < 0x10000 ∧ divisor ≠ 0 := by
  have hall : ∀ c, Plan.board.buses.named.names c = true := by
    intro c
    cases c <;> rfl
  obtain ⟨platform, hrun, hreached⟩ := Run.result_of_any bringUp_board_targetReached
  obtain ⟨live, last, hlive, husarts⟩ := bringUp_console_divisor hall hrun hreached
  refine ⟨hall, platform, _, _, live, last, hrun, hreached, hlive, fun u => ?_⟩
  obtain ⟨divisor, fin, hstart, hfits, -, hdividers⟩ := husarts u
  refine ⟨divisor, fin, hstart, hfits, (hdividers Temper.prompt_unlatched).mpr ?_⟩
  cases u <;> decide

/-- The board's plan with the slowest first peripheral bus that there is. -/
def Clock.Plan.boardSlow : Plan :=
  { Plan.board with buses := { Plan.board.buses with ahb := .div512, apb1 := .div16 } }

/-- A plan whose bus is too slow for the console is accepted by the check, names
all bus clocks and reaches its target, and the divisor of the USART on that bus is
zero. Its transmitter is turned on all the same. -/
theorem slow_console_reaches_target :
    ∃ platform q log live last fin,
      Plan.boardSlow.check = .ok Plan.boardSlow.rates ∧
      (∀ c, Plan.boardSlow.buses.named.names c = true) ∧
      (onRegisters .all (bringUp .boardSlow)).run ((simulated .prompt).handler 0)
        (.powerOn Part.bootVector) = ⟨.ok platform, q, log⟩ ∧
      platform.report.targetReached = true ∧
      liveRates.run ((simulated .prompt).handler 0) q = ⟨.ok live, last, []⟩ ∧
      Performs (simulated .prompt) 0 (Console.start .usart2 (Usart.usart2.busClockHz live)) last ()
        (Console.setup .usart2 0) fin := by
  have htest : ((onRegisters .all (bringUp .boardSlow)).run ((simulated .prompt).handler 0)
      (.powerOn Part.bootVector)).outcome.toOption.any (·.report.targetReached) = true := by
    decide +kernel
  have hclock : Usart.usart2.busClockHz ((onRegisters .all (bringUp .boardSlow)).run
      ((simulated .prompt).handler 0) (.powerOn Part.bootVector)).state.rates = 8789 := by
    decide +kernel
  obtain ⟨platform, hrun, hreached⟩ := Run.result_of_any htest
  have hdivisor : Console.divisor 8789 Console.baud = .ok 0 := rfl
  obtain ⟨fin, hstart⟩ := Console.start_performs (simulated .prompt) 0 .usart2 (hclock ▸ hdivisor) _
  refine ⟨platform, _, _, _, _, fin, rfl, fun c => ?_, hrun, hreached, liveRates_run _ _ _, hstart⟩
  cases c <;> rfl

end BringUp
