import BringUp.Proofs.Journals

/-!
Bounded polling, read by read.

* `Device.after`, `Device.values`, `Device.reads`: the states, the values and the
  events of successive reads of a register.
* `Device.FirstAccepted`: the number of the first value that is accepted.
* `Device.playing`: a device whose registers yield a given stream of values.
* `Setup.waitByReads`: a wait as a loop of single reads.
* `Setup.WaitEnds`, `Setup.WaitsExactly`: what a wait with a budget does, to the
  read.

Main statements: a poll is over with the first value that is accepted, or with its
budget (`Device.poll_of_first`, `Device.poll_exhausted`), so every wait is exact
(`Setup.waitsExactly`); and a wait does what the loop of single reads does
(`Setup.waitUntil_eq_waitByReads`).

A part answers a poll in one go, but a driver that polls is a loop around a read.
Nothing is assumed of the device. Its state may be anything, so the values of
successive reads may be any stream (`Device.values_playing`).
-/

namespace BringUp

/-! ## Successive reads of a register -/

namespace Device

variable {σ : Type} (d : Device σ) (r : Register)

/-- The state after `k` successive reads of a register. -/
def after : Nat → σ → σ
  | 0, s => s
  | k + 1, s => after k (d.read r s).2

/-- The values that successive reads of a register yield, counted from 0. -/
def values (s : σ) (k : Nat) : Word :=
  (d.read r (d.after r k s)).1

/-- The events of `n` successive reads of a register. -/
def reads : Nat → σ → List (Event σ)
  | 0, _ => []
  | n + 1, s => ⟨s, .read r, (d.read r s).2⟩ :: reads n (d.read r s).2

theorem length_reads (n : Nat) (s : σ) : (d.reads r n s).length = n := by
  induction n generalizing s with
  | zero => rfl
  | succ n ih => rw [reads, List.length_cons, ih]

/-- A device on which every register yields the same stream of values. It counts
the reads, and ignores what is written. -/
def playing (stream : Nat → Word) : Device Nat where
  read _ k := (stream k, k + 1)
  write _ _ k := k
  loadVector _ _ _ := .stub
  storeVector _ _ k := k

theorem after_playing (stream : Nat → Word) (k n : Nat) :
    (playing stream).after r k n = n + k := by
  induction k generalizing n with
  | zero => rfl
  | succ k ih =>
      show (playing stream).after r k (n + 1) = n + (k + 1)
      rw [ih, Nat.add_assoc, Nat.add_comm 1 k]

/-- Every stream is that of a device. -/
theorem values_playing (stream : Nat → Word) : (playing stream).values r 0 = stream := by
  funext k
  show stream ((playing stream).after r k 0) = stream k
  rw [after_playing, Nat.zero_add]

/-! ## Polls -/

/-- Value number `k` is the first that is accepted. -/
def FirstAccepted (accept : Word → Bool) (s : σ) (k : Nat) : Prop :=
  accept (d.values r s k) = true ∧ ∀ j < k, accept (d.values r s j) = false

variable {d r} {accept : Word → Bool} {budget k : Nat} {s : σ}

/-- Among the first `budget` values there is a first one that is accepted, or none
of them is. -/
theorem firstAccepted_or_none (d : Device σ) (r : Register) (accept : Word → Bool) (budget : Nat)
    (s : σ) :
    (∃ k < budget, d.FirstAccepted r accept s k) ∨
      ∀ k < budget, accept (d.values r s k) = false := by
  induction budget with
  | zero => exact .inr fun k hk => absurd hk (Nat.not_lt_zero k)
  | succ budget ih =>
      rcases ih with ⟨k, hk, hfirst⟩ | hnone
      · exact .inl ⟨k, Nat.lt_succ_of_lt hk, hfirst⟩
      · cases hlast : accept (d.values r s budget) with
        | true => exact .inl ⟨budget, Nat.lt_succ_self budget, hlast, hnone⟩
        | false =>
            refine .inr fun k hk => ?_
            rcases Nat.lt_succ_iff_lt_or_eq.mp hk with hlt | rfl
            · exact hnone k hlt
            · exact hlast

/-- A poll is over with the first value that is accepted. -/
theorem poll_of_first (hk : k < budget) (h : d.FirstAccepted r accept s k) :
    d.poll r accept budget s = (true, d.after r (k + 1) s) ∧
      d.pollHistory r accept budget s = d.reads r (k + 1) s := by
  induction budget generalizing k s with
  | zero => exact absurd hk (Nat.not_lt_zero k)
  | succ budget ih =>
      cases k with
      | zero =>
          have haccept : accept (d.read r s).1 = true := h.1
          simp only [poll, pollHistory, haccept, if_true]
          exact ⟨rfl, rfl⟩
      | succ k =>
          have hreject : accept (d.read r s).1 = false := h.2 0 (Nat.succ_pos k)
          have hlater : d.FirstAccepted r accept (d.read r s).2 k :=
            ⟨h.1, fun j hj => h.2 (j + 1) (Nat.succ_lt_succ hj)⟩
          obtain ⟨hpoll, hevents⟩ := ih (Nat.lt_of_succ_lt_succ hk) hlater
          simp only [poll, pollHistory, hreject, hpoll, hevents]
          exact ⟨rfl, rfl⟩

/-- A poll that accepts none of the values uses up its budget. -/
theorem poll_exhausted (h : ∀ k < budget, accept (d.values r s k) = false) :
    d.poll r accept budget s = (false, d.after r budget s) ∧
      d.pollHistory r accept budget s = d.reads r budget s := by
  induction budget generalizing s with
  | zero => exact ⟨rfl, rfl⟩
  | succ budget ih =>
      have hreject : accept (d.read r s).1 = false := h 0 (Nat.succ_pos budget)
      have hlater : ∀ k < budget, accept (d.values r (d.read r s).2 k) = false :=
        fun k hk => h (k + 1) (Nat.succ_lt_succ hk)
      obtain ⟨hpoll, hevents⟩ := ih hlater
      simp only [poll, pollHistory, hreject, hpoll, hevents]
      exact ⟨rfl, rfl⟩

/-- A poll never exceeds its budget. -/
theorem length_pollHistory_le (d : Device σ) (r : Register) (accept : Word → Bool) (budget : Nat)
    (s : σ) : (d.pollHistory r accept budget s).length ≤ budget := by
  rcases firstAccepted_or_none d r accept budget s with ⟨k, hk, hfirst⟩ | hnone
  · rw [(poll_of_first hk hfirst).2, length_reads]
    exact hk
  · have hlength : (d.pollHistory r accept budget s).length = budget := by
      rw [(poll_exhausted hnone).2, length_reads]
    exact Nat.le_of_eq hlength

end Device

/-! ## Waits -/

namespace Setup

/-- Reads again and again until a value is accepted; past the budget the flag
timed out. -/
def waitByReads (r : Register) (accept : Word → Bool) (flag : ReadyFlag) : Nat → Setup Unit
  | 0 => throw (.timeout flag)
  | budget + 1 => do
      let value ← Driver.read r
      if accept value then return () else waitByReads r accept flag budget

variable {σ : Type} (d : Device σ) (patience : Nat) (r : Register) (accept : Word → Bool)
  (flag : ReadyFlag) (budget : Nat) (s : σ)

/-- A wait is the loop of single reads: on every device it comes to the same
result, in the same state, by the same reads. -/
theorem waitUntil_eq_waitByReads :
    (waitUntil r accept flag budget).run.run (d.handler patience) s =
        (waitByReads r accept flag budget).run.run (d.handler patience) s ∧
      (waitUntil r accept flag budget).run.history d patience s =
        (waitByReads r accept flag budget).run.history d patience s := by
  rw [run_waitUntil, history_waitUntil]
  induction budget generalizing s with
  | zero => exact ⟨rfl, rfl⟩
  | succ budget ih =>
      -- one round: a read, and then the end or the other rounds
      have hround : (waitByReads r accept flag (budget + 1)).run.run (d.handler patience) s =
          (if accept (d.read r s).1 then pure () else waitByReads r accept flag budget :
            Setup Unit).run.run (d.handler patience) (d.read r s).2 := rfl
      have hevents : (waitByReads r accept flag (budget + 1)).run.history d patience s =
          ⟨s, .read r, (d.read r s).2⟩ ::
            (if accept (d.read r s).1 then pure () else waitByReads r accept flag budget :
              Setup Unit).run.history d patience (d.read r s).2 := rfl
      rw [hround, hevents]
      cases haccept : accept (d.read r s).1 with
      | true =>
          simp only [Device.poll, Device.pollHistory, haccept]
          exact ⟨rfl, rfl⟩
      | false =>
          obtain ⟨hrun, hhistory⟩ := ih (d.read r s).2
          simp only [Device.poll, Device.pollHistory, haccept, Bool.false_eq_true, if_false,
            hhistory, ← hrun, and_self]

/-- The wait ends with this result, and `n` reads are all that it takes. -/
def WaitEnds (result : SetupResult) (n : Nat) : Prop :=
  (waitUntil r accept flag budget).run.run (d.handler patience) s =
      ⟨.ok result, d.after r n s, []⟩ ∧
    (waitUntil r accept flag budget).run.history d patience s = d.reads r n s

/-- What a wait with a budget does on a device, to the read. -/
structure WaitsExactly : Prop where
  /-- It succeeds if and only if one of the first `budget` values is accepted. -/
  succeeds_iff :
    ((waitUntil r accept flag budget).run.run (d.handler patience) s).outcome = .ok (.ok ()) ↔
      ∃ k < budget, accept (d.values r s k) = true
  /-- Then the first such value ends it. -/
  accepted : ∀ k < budget, d.FirstAccepted r accept s k →
    WaitEnds d patience r accept flag budget s (.ok ()) (k + 1)
  /-- Else it times out with its budget. -/
  timeout : (∀ k < budget, accept (d.values r s k) = false) →
    WaitEnds d patience r accept flag budget s (.error (.timeout flag)) budget
  /-- In either case nothing is written. -/
  journal_eq : journal ((waitUntil r accept flag budget).run.history d patience s) = []
  /-- And it is the loop of single reads. -/
  unrolled :
    (waitUntil r accept flag budget).run.run (d.handler patience) s =
        (waitByReads r accept flag budget).run.run (d.handler patience) s ∧
      (waitUntil r accept flag budget).run.history d patience s =
        (waitByReads r accept flag budget).run.history d patience s

variable {d r accept budget s}

theorem waitEnds_of_first {k : Nat} (hk : k < budget) (h : d.FirstAccepted r accept s k) :
    WaitEnds d patience r accept flag budget s (.ok ()) (k + 1) := by
  obtain ⟨hpoll, hevents⟩ := Device.poll_of_first hk h
  rw [WaitEnds, run_waitUntil, history_waitUntil, hpoll, hevents]
  exact ⟨rfl, rfl⟩

theorem waitEnds_exhausted (h : ∀ k < budget, accept (d.values r s k) = false) :
    WaitEnds d patience r accept flag budget s (.error (.timeout flag)) budget := by
  obtain ⟨hpoll, hevents⟩ := Device.poll_exhausted h
  rw [WaitEnds, run_waitUntil, history_waitUntil, hpoll, hevents]
  exact ⟨rfl, rfl⟩

variable (d r accept budget s)

theorem waitsExactly : WaitsExactly d patience r accept flag budget s where
  succeeds_iff := by
    rcases Device.firstAccepted_or_none d r accept budget s with ⟨k, hk, hfirst⟩ | hnone
    · rw [(waitEnds_of_first patience flag hk hfirst).1]
      exact ⟨fun _ => ⟨k, hk, hfirst.1⟩, fun _ => rfl⟩
    · rw [(waitEnds_exhausted patience flag hnone).1]
      refine ⟨nofun, fun ⟨k, hk, haccept⟩ => ?_⟩
      rw [hnone k hk] at haccept
      cases haccept
  accepted _ hk hfirst := waitEnds_of_first patience flag hk hfirst
  timeout hnone := waitEnds_exhausted patience flag hnone
  journal_eq := by rw [history_waitUntil, journal_pollHistory]
  unrolled := waitUntil_eq_waitByReads d patience r accept flag budget s

/-- A flag that comes up with the last read of the budget is seen. -/
example :
    (waitSet .cr 0x00020000 .hse 3).run.run
        ((Device.playing fun k => if k = 2 then 0x00020000 else 0).handler 0) 0 =
      ⟨.ok (.ok ()), 3, []⟩ :=
  rfl

end Setup

end BringUp
