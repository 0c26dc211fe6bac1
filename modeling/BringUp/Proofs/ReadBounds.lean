import Mathlib.Algebra.Ring.Nat
import BringUp.Proofs.DriverRegisters
import BringUp.Proofs.Polling

/-!
How many register reads a driver makes, on any hardware at all.

* `Access.allowance calls`: the reads that calls are good for. A single read is
  good for one, and a poll for its budget.
* `Proc.path`: the calls that a run makes.
* `Proc.ReadsAtMost x n`: whatever the driver `x` is answered, it comes to a
  result, and the calls on its way are good for `n` reads at most.
* `oscillatorReads`, `busReads`, `peripheralReads`: the bounds of the three
  services that set the clocks, from the budgets of the waits that a plan comes to
  and the reads beside them.

Main statement: waits are exact, and therefore each of the three services returns
within its bound (`waits_exact_and_services_return`).

The bounds are found on the tree of a driver. It branches over all answers, so a
bound on it holds for a part whose flags never settle, or which answers at random.
-/

namespace BringUp

open Board Clock Hardware

namespace Access

/-- A single read. -/
def isRead : Access → Bool
  | .read _ => true
  | _ => false

/-- The budget of a poll. -/
def budget : Access → Nat
  | .poll _ _ budget => budget
  | _ => 0

/-- A call that is over after a known number of reads. -/
def isBounded : Access → Bool
  | .await _ _ => false
  | _ => true

/-- The reads that calls are good for: one for each single read, and the budgets of
the polls. -/
def allowance (calls : List Access) : Nat :=
  calls.countP isRead + (calls.map budget).sum

theorem allowance_cons (c : Access) (calls : List Access) :
    allowance (c :: calls) = allowance [c] + allowance calls := by
  simp only [allowance, List.countP_cons, List.countP_nil, List.map_cons, List.map_nil,
    List.sum_cons, List.sum_nil]
  omega

end Access

/-- The register reads among events. -/
def readCount {σ : Type} (es : List (Event σ)) : Nat :=
  es.countP (·.access.isRead)

section

variable {σ : Type} (d : Device σ) (patience : Nat)

theorem readCount_append (es fs : List (Event σ)) :
    readCount (es ++ fs) = readCount es + readCount fs :=
  List.countP_append

namespace Device

/-- A bounded call takes no more reads than it is good for. -/
theorem readCount_history_le {c : Access} (hc : c.isBounded = true) (s : σ) :
    readCount (d.history patience c s) ≤ Access.allowance [c] := by
  cases c with
  | poll r accept budget =>
      have hlength : (d.pollHistory r accept budget s).length ≤ budget :=
        length_pollHistory_le d r accept budget s
      show readCount (d.pollHistory r accept budget s) ≤ 0 + (budget + 0)
      rw [Nat.zero_add, Nat.add_zero]
      exact Nat.le_trans List.countP_le_length hlength
  | await r accept => cases hc
  | read r | write r v | loadVector table slot | storeVector slot entry => exact Nat.le_refl _

/-- A bounded call is answered. -/
theorem respond_of_bounded {c : Access} (hc : c.isBounded = true) (s : σ) :
    ∃ answer t, (d.handler patience).respond c s = (.ok answer, t) := by
  cases c with
  | await r accept => cases hc
  | read r | write r v | poll r accept budget | loadVector table slot | storeVector slot entry =>
      exact ⟨_, _, rfl⟩

end Device

/-! ## Paths -/

/-- The calls that a run makes, in their order. A poll is one call. -/
def Proc.path {α : Type} : Driver α → σ → List Access
  | done _, _ => []
  | stop _, _ => []
  | note _ rest, s => rest.path s
  | call c rest, s =>
      c :: match (d.handler patience).respond c s with
        | (.ok answer, t) => (rest answer).path t
        | (.error _, _) => []

/-- Run from `s`, the driver comes to a result. It makes no more register reads than
the calls on its path are good for, and those are good for `bound` at most. -/
structure ReturnsWithin {α : Type} (x : Driver α) (s : σ) (bound : Nat) : Prop where
  returns : ∃ a t log, x.run (d.handler patience) s = ⟨.ok a, t, log⟩
  reads_le : readCount (x.history d patience s) ≤ Access.allowance (x.path d patience s)
  allowance_le : Access.allowance (x.path d patience s) ≤ bound

end

/-! ## Bounds on the tree of a driver -/

namespace Proc

/-- Whatever the driver is answered, it comes to a result, and the calls on its way
are good for `n` reads at most. -/
def ReadsAtMost {α : Type} : Driver α → Nat → Prop
  | done _, _ => True
  | stop _, _ => False
  | note _ rest, n => rest.ReadsAtMost n
  | call c rest, n =>
      c.isBounded = true ∧ ∃ k, Access.allowance [c] + k ≤ n ∧ ∀ answer, (rest answer).ReadsAtMost k

namespace ReadsAtMost

variable {α β : Type} {m n : Nat}

/-- A bound on the tree is a bound on every run, on every device. -/
theorem returnsWithin {x : Driver α} (hx : x.ReadsAtMost n) {σ : Type} (d : Device σ)
    (patience : Nat) (s : σ) : ReturnsWithin d patience x s n := by
  induction x generalizing s n with
  | done a => exact ⟨⟨a, s, [], rfl⟩, Nat.le_refl 0, Nat.zero_le n⟩
  | stop why => exact hx.elim
  | note record rest ih =>
      obtain ⟨⟨a, t, log, hrun⟩, hreads, hpath⟩ := ih hx s
      refine ⟨⟨a, t, record :: log, ?_⟩, hreads, hpath⟩
      simp only [run, hrun]
  | call c rest ih =>
      obtain ⟨hc, k, hk, hrest⟩ := hx
      obtain ⟨answer, t, hrespond⟩ := d.respond_of_bounded patience hc s
      obtain ⟨⟨a, u, log, hrun⟩, hreads, hpath⟩ := ih answer (hrest answer) t
      have hcall := d.readCount_history_le patience hc s
      refine ⟨⟨a, u, log, ?_⟩, ?_, ?_⟩
      · simp only [run, hrespond, hrun]
      · simp only [history, path, hrespond]
        rw [readCount_append, Access.allowance_cons]
        exact Nat.add_le_add hcall hreads
      · simp only [path, hrespond]
        rw [Access.allowance_cons]
        exact Nat.le_trans (Nat.add_le_add_left hpath _) hk

theorem mono {x : Driver α} (hx : x.ReadsAtMost m) (h : m ≤ n) : x.ReadsAtMost n := by
  induction x generalizing m n with
  | done a => trivial
  | stop why => exact hx
  | note record rest ih => exact ih hx h
  | call c rest ih =>
      obtain ⟨hc, k, hk, hrest⟩ := hx
      exact ⟨hc, k, Nat.le_trans hk h, hrest⟩

/-! ### Rules, one for each way to build a driver -/

/-- The bounds of a sequence add up. -/
theorem bind {x : Driver α} {f : α → Driver β} (hx : x.ReadsAtMost m)
    (hf : ∀ a, (f a).ReadsAtMost n) : (x >>= f).ReadsAtMost (m + n) := by
  show (x.bind f).ReadsAtMost (m + n)
  induction x generalizing m with
  | done a => exact (hf a).mono (Nat.le_add_left n m)
  | stop why => exact hx.elim
  | note record rest ih => exact ih hx
  | call c rest ih =>
      obtain ⟨hc, k, hk, hrest⟩ := hx
      refine ⟨hc, k + n, ?_, fun answer => ih answer (hrest answer)⟩
      rw [← Nat.add_assoc]
      exact Nat.add_le_add_right hk n

/-- What is computed from an answer costs no further reads. -/
theorem returning {x : Driver α} {f : α → β} (hx : x.ReadsAtMost n) :
    (x >>= fun a => Pure.pure (f a)).ReadsAtMost n :=
  bind (n := 0) hx fun _ => trivial

theorem log (level : Log.Level) (target message : String) :
    (Driver.log level target message).ReadsAtMost 0 :=
  trivial

/-- A computation that does not fault reads nothing. -/
theorem ofExcept {x : Except Fault α} {a : α} (hx : x = .ok a) :
    (Proc.ofExcept x : Driver α).ReadsAtMost 0 := by
  rw [hx]
  trivial

theorem request {c : Access} (hc : c.isBounded = true) :
    (Proc.request (I := bus) c).ReadsAtMost (Access.allowance [c]) :=
  ⟨hc, 0, Nat.le_refl _, fun _ => trivial⟩

theorem read (r : Register) : (Driver.read r).ReadsAtMost 1 :=
  request rfl

theorem write (r : Register) (v : Word) : (Driver.write r v).ReadsAtMost 0 :=
  request rfl

theorem modify (r : Register) (f : Word → Word) : (Driver.modify r f).ReadsAtMost 1 :=
  bind (read r) fun _ => write r _

theorem isSet (r : Register) (mask : Word) : (Driver.isSet r mask).ReadsAtMost 1 :=
  returning (read r)

theorem readField (r : Register) (f : Field) : (Driver.readField r f).ReadsAtMost 1 :=
  returning (read r)

theorem lift {x : Driver α} (hx : x.ReadsAtMost n) : (liftM x : Setup α).run.ReadsAtMost n :=
  returning hx

theorem setupBind {x : Setup α} {f : α → Setup β} (hx : x.run.ReadsAtMost m)
    (hf : ∀ a, (f a).run.ReadsAtMost n) : (x >>= f).run.ReadsAtMost (m + n) := by
  refine bind hx fun result => ?_
  cases result with
  | ok a => exact hf a
  | error e => trivial

/-- A step that is not taken reads nothing. -/
theorem optionally {c : Bool} {x : Setup Unit} (hx : x.run.ReadsAtMost n) :
    (BringUp.optionally c x).run.ReadsAtMost (if c then n else 0) := by
  cases c with
  | true => exact hx
  | false => trivial

theorem optionallyDriver {c : Bool} {x : Driver Unit} (hx : x.ReadsAtMost n) :
    (BringUp.optionally c x).ReadsAtMost (if c then n else 0) := by
  cases c with
  | true => exact hx
  | false => trivial

theorem waitUntil (r : Register) (accept : Word → Bool) (flag : ReadyFlag) (budget : Nat) :
    (Setup.waitUntil r accept flag budget).run.ReadsAtMost budget := by
  have hpoll : (Proc.request (I := bus) (.poll r accept budget)).ReadsAtMost budget :=
    (request rfl).mono (Nat.le_of_eq (Nat.zero_add (budget + 0)))
  refine setupBind (n := 0) (lift hpoll) fun accepted => ?_
  cases accepted <;> trivial

/-- A register is changed, and then one of its flags is waited for. -/
theorem modifyThenWait (r : Register) (f : Word → Word) (accept : Word → Bool) (flag : ReadyFlag)
    (budget : Nat) :
    (do
      Driver.modify r f
      Setup.waitUntil r accept flag budget : Setup Unit).run.ReadsAtMost (1 + budget) :=
  setupBind (lift (modify r f)) fun _ => waitUntil r accept flag budget

end ReadsAtMost

end Proc

/-! ## The drivers of the clocks -/

namespace Hardware

open Proc (ReadsAtMost)

/-- To stop an oscillator, and to start it again if it is to run: for either one
read-modify-write and one wait. -/
def restartReads (running : Bool) (budget : Nat) : Nat :=
  (1 + budget) + if running then 1 + budget else 0

def hseReads (mode : OscillatorMode) : Nat :=
  2 + restartReads mode.running Budget.hse

def hsiReads : Nat :=
  2 + (1 + Budget.hsi)

def lsiReads : Nat :=
  1 + Budget.lsi

/-- The gate of the lock is opened and read back, and the lock is looked at and
opened. -/
def accessReads : Nat :=
  2 + (1 + (1 + Budget.backupDomain))

def lseReads (mode : OscillatorMode) : Nat :=
  accessReads + (1 + restartReads mode.running Budget.lse)

/-- The PLL is stopped. To be started it is set before. -/
def pllReads (wanted : Option PllSetting) : Nat :=
  1 + ((1 + Budget.pll) + if wanted.isSome then 1 + (1 + Budget.pll) else 0)

/-- The reads of `configureOscillators`. -/
def oscillatorReads (plan : OscillatorPlan) : Nat :=
  ((if plan.named.names .hse then hseReads plan.hse else 0) +
    ((if plan.named.names .hsi then hsiReads else 0) +
      ((if plan.named.names .lsi then lsiReads else 0) +
        if plan.named.names .lse then lseReads plan.lse else 0))) +
    pllReads plan.pll

/-- One read-modify-write for each peripheral bus that is named. -/
def dividerReads (plan : BusPlan) : Nat :=
  (if plan.named.names .pclk1 then 1 else 0) + if plan.named.names .pclk2 then 1 else 0

/-- The reads of `configureBusClocks`. The wait states are looked at twice, and may
be set and read back either time. -/
def busReads (plan : BusPlan) : Nat :=
  3 + ((if plan.named.names .hclk then dividerReads plan + 1 else 0) +
    ((if plan.named.names .sysclk then 1 + (1 + Budget.clockSwitch) else 0) +
      (3 + dividerReads plan)))

/-- The domain is reset by two read-modify-writes and restored. -/
def domainResetReads : Nat :=
  1 + (1 + (1 + Budget.lse))

/-- The reads of `configurePeripheralClocks`. -/
def peripheralReads (plan : PeripheralPlan) : Nat :=
  (if plan.named.names .rtc then accessReads + (1 + (domainResetReads + 1)) else 0) +
    if plan.named.names .adc then 1 else 0

/-! ### Oscillators -/

theorem drivesSysclk_reads (source : SysclkSource) (input : PllSource) :
    (drivesSysclk source input).ReadsAtMost 2 := by
  unfold drivesSysclk sysclkStatus pllSource
  refine .bind (m := 1) (n := 1) (.returning (.readField _ _)) fun status => ?_
  split
  · trivial
  · split
    · exact .returning (.returning (.isSet _ _))
    · trivial

/-- An oscillator is stopped, and started again if it is to run. -/
theorem restart_reads (r : Register) (off on ready : Word) (flag : ReadyFlag) (running : Bool)
    (budget : Nat) :
    (do
      Driver.clearBits r off
      Setup.waitClear r ready flag budget
      if running then
        Driver.setBits r on
        Setup.waitSet r ready flag budget : Setup Unit).run.ReadsAtMost
      (restartReads running budget) := by
  unfold restartReads
  rw [Nat.add_assoc]
  refine .setupBind (.lift (.modify _ _)) fun _ => .setupBind (.waitUntil _ _ _ _) fun _ => ?_
  cases running with
  | true => exact .modifyThenWait _ _ _ _ _
  | false => trivial

theorem configureHse_reads (mode : OscillatorMode) :
    (configureHse mode).run.ReadsAtMost (hseReads mode) := by
  unfold configureHse
  refine .setupBind (.lift (drivesSysclk_reads _ _)) fun drives => ?_
  split
  · split <;> trivial
  · exact restart_reads _ _ _ _ _ _ _

theorem configureHsi_reads (mode : OscillatorMode) :
    (configureHsi mode).run.ReadsAtMost hsiReads := by
  unfold configureHsi
  refine .setupBind (.lift (drivesSysclk_reads _ _)) fun drives => ?_
  split
  · split
    · exact (ReadsAtMost.waitUntil _ _ _ _).mono (Nat.le_add_left _ _)
    · trivial
  · split <;> exact .modifyThenWait _ _ _ _ _

theorem configureLsi_reads (mode : OscillatorMode) :
    (configureLsi mode).run.ReadsAtMost lsiReads := by
  unfold configureLsi
  split <;> exact .modifyThenWait _ _ _ _ _

/-- The gate of the power controller is one that a word has room for. -/
theorem access_reads : BackupDomain.access.run.ReadsAtMost accessReads := by
  have hclock : (enableClock Gate.pwr).ReadsAtMost 2 := by
    have hmask : Gate.pwr.mask = .ok (BitVec.twoPow 32 28) := rfl
    refine .bind (m := 0) (n := 2) (.ofExcept hmask) fun mask => ?_
    refine .bind (m := 1) (n := 1) (.modify _ _) fun _ => ?_
    exact .returning (.read _)
  refine .setupBind (.lift hclock) fun _ => .setupBind (.lift (.isSet _ _)) fun unlocked => ?_
  cases unlocked with
  | true => trivial
  | false => exact .modifyThenWait _ _ _ _ _

theorem configureLse_reads (mode : OscillatorMode) :
    (configureLse mode).run.ReadsAtMost (lseReads mode) := by
  have hwait : Budget.lse ≤ restartReads mode.running Budget.lse :=
    Nat.le_trans (Nat.le_add_left _ 1) (Nat.le_add_right _ _)
  unfold configureLse awaitLse
  refine .setupBind access_reads fun _ => .setupBind (.lift (.read _)) fun bdcr => ?_
  split
  · split <;> exact (ReadsAtMost.waitUntil _ _ _ _).mono hwait
  · exact restart_reads _ _ _ _ _ _ _

theorem configurePll_reads (wanted : Option PllSetting) (divider : HseDivider) :
    (configurePll wanted divider).run.ReadsAtMost (pllReads wanted) := by
  have hkeep : (keepPll wanted divider).run.ReadsAtMost 1 := by
    unfold keepPll
    split
    · trivial
    · refine .setupBind (n := 0) (.lift (.read _)) fun _ => ?_
      split <;> trivial
  have hrestart : (restartPll wanted divider).run.ReadsAtMost
      ((1 + Budget.pll) + if wanted.isSome then 1 + (1 + Budget.pll) else 0) := by
    unfold restartPll
    rw [Nat.add_assoc]
    refine .setupBind (.lift (.modify _ _)) fun _ => .setupBind (.waitUntil _ _ _ _) fun _ => ?_
    cases wanted with
    | none => trivial
    | some pll => exact .setupBind (.lift (.modify _ _)) fun _ => .modifyThenWait _ _ _ _ _
  have hstatus : sysclkStatus.ReadsAtMost 1 :=
    .returning (.readField _ _)
  unfold configurePll
  rw [pllReads, ← Nat.zero_add (1 + _)]
  refine .setupBind ?_ fun _ => .setupBind (.lift hstatus) fun status => ?_
  · unfold requireMultiplier
    split
    · split <;> trivial
    · trivial
  · split
    · exact hkeep.mono (Nat.le_trans (Nat.le_add_right 1 _) (Nat.le_add_right _ _))
    · exact hrestart

theorem configureOscillators_reads (plan : OscillatorPlan) :
    (configureOscillators plan).run.ReadsAtMost (oscillatorReads plan) := by
  rw [configureOscillators_eq]
  refine .setupBind ?_ fun _ => configurePll_reads _ _
  refine .setupBind (.optionally (configureHse_reads _)) fun _ => ?_
  refine .setupBind (.optionally (configureHsi_reads _)) fun _ => ?_
  refine .setupBind (.optionally (configureLsi_reads _)) fun _ => ?_
  exact .optionally (configureLse_reads _)

/-! ### Buses -/

/-- Wait states are read and, if that calls for it, set. -/
theorem adjustWaitStates_reads (due : WaitStates → Prop) [DecidablePred due]
    (wanted : WaitStates) :
    (adjustWaitStates due wanted).run.ReadsAtMost 3 := by
  have hcurrent : Flash.waitStates.ReadsAtMost 1 :=
    .returning (.readField _ _)
  unfold adjustWaitStates
  refine .setupBind (m := 1) (n := 2) (.lift hcurrent) fun _ => ?_
  split
  · refine .setupBind (m := 1) (n := 1) (.lift (.modify _ _)) fun _ => ?_
    refine .setupBind (n := 0) (.lift hcurrent) fun _ => ?_
    split <;> trivial
  · trivial

theorem divideCore_reads (plan : BusPlan) :
    (divideCore plan).ReadsAtMost (dividerReads plan + 1) := by
  rw [divideCore_eq, dividerReads, Nat.add_assoc]
  exact .bind (.optionallyDriver (.modify _ _)) fun _ =>
    .bind (.optionallyDriver (.modify _ _)) fun _ => .optionallyDriver (.modify _ _)

theorem dividePeripheralBuses_reads (plan : BusPlan) :
    (dividePeripheralBuses plan).ReadsAtMost (dividerReads plan) := by
  rw [dividePeripheralBuses_eq]
  exact .bind (.optionallyDriver (.modify _ _)) fun _ => .optionallyDriver (.modify _ _)

theorem switchSysclk_reads (source : SysclkSource) :
    (switchSysclk source).run.ReadsAtMost (1 + (1 + Budget.clockSwitch)) := by
  refine .setupBind (.lift (.read _)) fun cr => ?_
  split
  · trivial
  · exact .modifyThenWait _ _ _ _ _

theorem configureBusClocks_reads (plan : BusPlan) :
    (configureBusClocks plan).run.ReadsAtMost (busReads plan) := by
  rw [configureBusClocks_eq]
  refine .setupBind (adjustWaitStates_reads (plan.waitStates.count > ·.count) _) fun _ => ?_
  refine .setupBind (.optionally (.lift (divideCore_reads plan))) fun _ => ?_
  refine .setupBind (.optionally (switchSysclk_reads _)) fun _ => ?_
  refine .setupBind (adjustWaitStates_reads (plan.waitStates.count < ·.count) _) fun _ => ?_
  exact .lift (dividePeripheralBuses_reads plan)

/-! ### Peripherals -/

theorem selectRtcSource_reads (source : RtcSource) :
    (selectRtcSource source).run.ReadsAtMost (accessReads + (1 + (domainResetReads + 1))) := by
  have hwrite : (liftM (Driver.writeField .bdcr Bdcr.rtcSource source.code) :
      Setup Unit).run.ReadsAtMost 1 := .lift (.modify _ _)
  unfold selectRtcSource resetBackupDomain
  refine .setupBind access_reads fun _ => .setupBind (.lift (.readField _ _)) fun current => ?_
  dsimp only
  split
  · refine .setupBind ?_ fun _ => hwrite
    rw [← Nat.zero_add domainResetReads, domainResetReads]
    refine .setupBind (.lift (.log _ _ _)) fun _ => .setupBind (.lift (.read _)) fun _ => ?_
    refine .setupBind (.lift (.modify _ _)) fun _ => .setupBind (.lift (.modify _ _)) fun _ => ?_
    rw [← Nat.zero_add Budget.lse]
    refine .setupBind (.lift (.write _ _)) fun _ => ?_
    split
    · exact .waitUntil _ _ _ _
    · trivial
  · exact hwrite.mono (Nat.le_add_left 1 _)

theorem configurePeripheralClocks_reads (plan : PeripheralPlan) :
    (configurePeripheralClocks plan).run.ReadsAtMost (peripheralReads plan) := by
  rw [configurePeripheralClocks_eq]
  exact .setupBind (.optionally (selectRtcSource_reads _)) fun _ =>
    .optionally (.lift (.modify _ _))

/-! ### Bounds for all plans -/

/-- A step that is not taken costs no more than one that is. -/
theorem optional_le (c : Bool) (n : Nat) : (if c then n else 0) ≤ n := by
  cases c with
  | true => exact Nat.le_refl n
  | false => exact Nat.zero_le n

theorem restartReads_le (running : Bool) (budget : Nat) :
    restartReads running budget ≤ (1 + budget) + (1 + budget) :=
  Nat.add_le_add_left (optional_le running (1 + budget)) (1 + budget)

/-- There are nine waits at most, and nineteen single reads beside them. -/
theorem oscillatorReads_le (plan : OscillatorPlan) :
    oscillatorReads plan ≤ 19 + (2 * Budget.hse + Budget.hsi + Budget.lsi + Budget.backupDomain +
      2 * Budget.lse + 2 * Budget.pll) := by
  have hhse := optional_le (plan.named.names .hse) (hseReads plan.hse)
  have hhsi := optional_le (plan.named.names .hsi) hsiReads
  have hlsi := optional_le (plan.named.names .lsi) lsiReads
  have hlse := optional_le (plan.named.names .lse) (lseReads plan.lse)
  have hpll := optional_le plan.pll.isSome (1 + (1 + Budget.pll))
  have hhse' := restartReads_le plan.hse.running Budget.hse
  have hlse' := restartReads_le plan.lse.running Budget.lse
  simp only [oscillatorReads, hseReads, hsiReads, lsiReads, lseReads, accessReads, pllReads] at *
  omega

theorem busReads_le (plan : BusPlan) : busReads plan ≤ 13 + Budget.clockSwitch := by
  have hcore := optional_le (plan.named.names .hclk) (dividerReads plan + 1)
  have hswitch := optional_le (plan.named.names .sysclk) (1 + (1 + Budget.clockSwitch))
  have hdividers : dividerReads plan ≤ 1 + 1 :=
    Nat.add_le_add (optional_le (plan.named.names .pclk1) 1)
      (optional_le (plan.named.names .pclk2) 1)
  unfold busReads
  omega

theorem peripheralReads_le (plan : PeripheralPlan) :
    peripheralReads plan ≤ 10 + (Budget.backupDomain + Budget.lse) := by
  have hrtc := optional_le (plan.named.names .rtc) (accessReads + (1 + (domainResetReads + 1)))
  have hadc := optional_le (plan.named.names .adc) 1
  simp only [peripheralReads, accessReads, domainResetReads] at *
  omega

end Hardware

/-- Bounded polling, on any device in any state. Every wait is exact, and the values
that it may come across are any stream at all. Each service that sets the clocks
returns, for every plan. Its register reads are no more than the single reads and the
budgets on its path, and those add up to no more than a constant. -/
theorem waits_exact_and_services_return {σ : Type} (d : Device σ) (patience : Nat)
    (ceiling : Log.Ceiling) (s : σ) :
    (∀ r accept flag budget, Setup.WaitsExactly d patience r accept flag budget s) ∧
    (∀ (stream : Nat → Word) (r : Register), (Device.playing stream).values r 0 = stream) ∧
    (∀ plan : OscillatorPlan,
      ReturnsWithin d patience (provide ceiling (.configureOscillators plan)) s
        (oscillatorReads plan) ∧
      oscillatorReads plan ≤ 19 + (2 * Budget.hse + Budget.hsi + Budget.lsi +
        Budget.backupDomain + 2 * Budget.lse + 2 * Budget.pll)) ∧
    (∀ plan : BusPlan,
      ReturnsWithin d patience (provide ceiling (.configureBusClocks plan)) s (busReads plan) ∧
      busReads plan ≤ 13 + Budget.clockSwitch) ∧
    (∀ plan : PeripheralPlan,
      ReturnsWithin d patience (provide ceiling (.configurePeripheralClocks plan)) s
        (peripheralReads plan) ∧
      peripheralReads plan ≤ 10 + (Budget.backupDomain + Budget.lse)) := by
  refine ⟨fun r accept flag budget => Setup.waitsExactly d patience r accept flag budget s,
    fun stream r => Device.values_playing r stream, fun plan => ?_, fun plan => ?_, fun plan => ?_⟩
  · exact ⟨(configureOscillators_reads plan).returnsWithin d patience s, oscillatorReads_le plan⟩
  · exact ⟨(configureBusClocks_reads plan).returnsWithin d patience s, busReads_le plan⟩
  · exact ⟨(configurePeripheralClocks_reads plan).returnsWithin d patience s,
      peripheralReads_le plan⟩

end BringUp
