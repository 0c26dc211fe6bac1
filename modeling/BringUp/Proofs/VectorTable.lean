import BringUp.Proofs.DriverRegisters
import BringUp.Proofs.PlainRegisters

/-!
The vector table in working memory.

* `SystemControl.stubbedTable flash`: the system exceptions of the table in
  flash, and the stub behind every external interrupt.
* `Part.Serves flash p`: behind each system exception, the table in force has
  the handler that the one in flash has.
* `Part.Stubbing flash table k p`: the table at `table` is in force and serves,
  and in working memory the first `k` slots are those of the stubbed table.

Main statements: as long as the table in force serves, the table that is
installed is the stubbed one (`installStubs_ensures`); no other service writes a
vector (`provide_storesNothing`); and from the reset of the clocks on the system
exceptions are served at every moment, whatever is called
(`exceptions_served_after_reset`). So after a reset the stubs may be installed as
often as one likes (`stubs_installed_after_reset`).

The copy reads the table in force and writes the one in working memory. Once
the stubs are installed these are one table, and every slot is copied onto
itself. Nothing in the proof asks which case it is: a slot that is written with
the exception it should have leaves a table that serves, whether or not it is
the one that is being read.
-/

namespace BringUp

open Board Hardware Hardware.MemoryMap Hardware.SystemControl

/-! ## The stubbed table -/

namespace Hardware.SystemControl

/-- What the stubbed table has in a slot. -/
def stubbedEntry (flash : Nat → Word) (slot : Nat) : VectorEntry :=
  if slot < systemExceptions then .handler (flash slot) else .stub

/-- The table with the exceptions of the one in flash, and stubs behind them. -/
def stubbedTable (flash : Nat → Word) : Vector VectorEntry vectorCount :=
  Vector.ofFn fun slot => stubbedEntry flash slot

variable {flash : Nat → Word}

theorem stubbedEntry_exception {slot : Nat} (h : slot < systemExceptions) :
    stubbedEntry flash slot = .handler (flash slot) :=
  if_pos h

theorem stubbedEntry_interrupt (line : Nat) :
    stubbedEntry flash (systemExceptions + line) = .stub :=
  if_neg (Nat.not_lt.mpr (Nat.le_add_right _ line))

end Hardware.SystemControl

namespace Part

variable {t : Temper} {flash : Nat → Word} {table : Word} {p : Part} {k : Nat}

/-- Behind each system exception, the table in force has the handler of the
table in flash. -/
structure Serves (flash : Nat → Word) (p : Part) : Prop where
  flash_eq : p.flash = flash
  handler : ∀ slot < systemExceptions, p.loadVector (p.peek .vtor) slot = .handler (flash slot)

/-- The table in flash serves itself. -/
theorem serves_of_flash (h : p.peek .vtor ≠ ramTable) : p.Serves p.flash :=
  ⟨rfl, fun _ _ => if_neg h⟩

/-- On the way to the stubbed table: the table that is copied from is in force
and serves, and the first slots of the copy are there. -/
structure Stubbing (flash : Nat → Word) (table : Word) (k : Nat) (p : Part) : Prop where
  serves : p.Serves flash
  inForce : p.peek .vtor = table
  stubbed : ∀ slot < k, p.vectors[slot]? = some (stubbedEntry flash slot)

namespace Stubbing

/-- The exception that is copied is the one in flash. -/
theorem load (h : Stubbing flash table k p) (hk : k < systemExceptions) :
    p.loadVector table k = stubbedEntry flash k := by
  rw [stubbedEntry_exception hk, ← h.inForce, h.serves.handler k hk]

/-- One more slot is there. If the table in force is the one that is written,
it serves as before, since the slot has what it should have. -/
theorem store (h : Stubbing flash table k p) (hk : k < vectorCount) :
    Stubbing flash table (k + 1) (p.storeVector k (stubbedEntry flash k)) := by
  have hslot : ∀ slot : Nat, (p.storeVector k (stubbedEntry flash k)).vectors[slot]? =
      if k = slot then some (stubbedEntry flash k) else p.vectors[slot]? := by
    intro slot
    rw [storeVector, Vector.getElem?_setIfInBounds]
    simp only [hk, if_true]
  refine ⟨⟨h.serves.flash_eq, fun slot hexc => ?_⟩, h.inForce, fun slot hle => ?_⟩
  · have hbefore := h.serves.handler slot hexc
    show loadVector (p.peek .vtor) slot _ = _
    unfold loadVector at hbefore ⊢
    split at hbefore
    · next hram =>
      rw [if_pos hram, hslot]
      split
      · next hsame =>
        rw [hsame, stubbedEntry_exception hexc]
        rfl
      · exact hbefore
    · next hram =>
      rw [if_neg hram]
      exact hbefore
  · rw [hslot]
    split
    · next hsame => rw [hsame]
    · next hne => exact h.stubbed slot (by omega)

/-- All of the slots together are the stubbed table. -/
theorem vectors_eq (h : Stubbing flash table vectorCount p) : p.vectors = stubbedTable flash := by
  refine Vector.ext fun slot hslot => ?_
  have hentry := h.stubbed slot hslot
  rw [Vector.getElem?_eq_getElem hslot, Option.some.injEq] at hentry
  rw [hentry, stubbedTable, Vector.getElem_ofFn]

end Stubbing

/-- The stubbed table serves. -/
theorem serves_of_stubbed (hflash : p.flash = flash) (hvectors : p.vectors = stubbedTable flash)
    (hvtor : p.peek .vtor = ramTable) : p.Serves flash := by
  refine ⟨hflash, fun slot hslot => ?_⟩
  have hcount : slot < vectorCount := Nat.lt_of_lt_of_le hslot (Nat.le_add_right _ _)
  rw [hvtor, loadVector, if_pos rfl, hvectors, Vector.getElem?_eq_getElem hcount,
    stubbedTable, Vector.getElem_ofFn, stubbedEntry_exception hslot]
  rfl

end Part

/-! ## The installation -/

variable {t : Temper} {patience : Nat} {ceiling : Log.Ceiling} {flash : Nat → Word} {p : Part}

theorem Register.vtor_plain : vtor.Plain :=
  ⟨rfl, nofun⟩

/-- A table that serves is replaced by the stubbed one, and one of the two is in
force at every moment on the way. -/
theorem Hardware.SystemControl.installStubs_ensures (ht : t.Unlatched) (hp : p.Serves flash) :
    Ensures (simulated t) patience (fun e => e.after.Serves flash) installStubs p
      (fun _ q => q.Serves flash ∧ q.vectors = stubbedTable flash ∧ q.peek .vtor = ramTable) := by
  have hread : ∀ q : Part, q.tick .vtor = q := Register.vtor_plain.tick_eq
  unfold installStubs vectorTable
  refine .bind (R := fun table q => q.Stubbing flash table 0)
    (.read ?_ ?_) fun table q hq => ?_
  · exact (hread p).symm ▸ hp
  · exact (hread p).symm ▸ ⟨hp, rfl, nofun⟩
  -- The exceptions: each is loaded from the table in force and stored.
  refine .bind (R := fun _ q => q.Stubbing flash table systemExceptions)
    (.forRange hq fun k u hk hu => ?_) fun _ q hq => ?_
  · have hnext := hu.store (Nat.lt_of_lt_of_le hk (Nat.le_add_right _ _))
    refine .bind (R := fun entry v => entry = stubbedEntry flash k ∧ v = u)
      (.loadVector hu.serves ⟨hu.load hk, rfl⟩) ?_
    rintro _ _ ⟨rfl, rfl⟩
    exact .storeVector hnext.serves hnext
  -- The interrupts: the stub is stored, whatever is there.
  refine .bind (R := fun _ q => q.Stubbing flash table vectorCount)
    (.forRange (I := fun k q => Part.Stubbing flash table (systemExceptions + k) q) hq
      fun k u hk hu => ?_) fun _ q hq => ?_
  · have hnext := hu.store (Nat.add_lt_add_left hk _)
    rw [stubbedEntry_interrupt] at hnext
    exact .storeVector hnext.serves hnext
  have hwrite : (simulated t).write .vtor ramTable q = q.poke .vtor ramTable :=
    Register.vtor_plain.write_eq ht rfl ramTable
  have hserves : (q.poke .vtor ramTable).Serves flash :=
    Part.serves_of_stubbed hq.serves.flash_eq hq.vectors_eq (q.peek_poke_self _ _)
  refine .bind (R := fun _ v => v = q.poke .vtor ramTable) (.write ?_ hwrite) ?_
  · rw [hwrite]
    exact hserves
  · rintro _ _ rfl
    exact .log ⟨hserves, hq.vectors_eq, q.peek_poke_self _ _⟩

/-! ## The other services -/

/-- The access writes a vector. -/
def Access.stores : Access → Bool
  | .storeVector _ _ => true
  | _ => false

namespace Part

/-- What is behind the vector tables: flash and working memory. -/
def memory (p : Part) : (Nat → Word) × Vector VectorEntry vectorCount :=
  (p.flash, p.vectors)

/-- Time does not change memory. -/
theorem memory_tick (p : Part) (r : Register) : (p.tick r).memory = p.memory := by
  unfold tick
  split
  · unfold countDownSending
    split <;> rfl
  · refine foldl_view memory fun f _ q => ?_
    obtain ⟨_, _, hcount⟩ := q.countDown_eq f
    rw [hcount]
    rfl

/-- No register write changes memory. -/
theorem memory_write (t : Temper) (r : Register) (v : Word) (p : Part) :
    (p.write t r v).memory = p.memory := by
  unfold write
  split
  · rfl
  · dsimp only
    split
    · unfold startSending
      split <;> rfl
    · refine foldl_view memory fun f _ q => ?_
      obtain ⟨_, _, hreact⟩ := q.react_eq t f
      rw [hreact]
      rfl

/-- Only the storing of vectors changes memory. -/
theorem memory_keeps (t : Temper) (m : (Nat → Word) × Vector VectorEntry vectorCount) :
    (simulated t).Keeps (fun c => !c.stores) (fun p => p.memory = m) where
  read r p _ hp := (p.memory_tick r).trans hp
  write r v p _ hp := (p.memory_write t r v).trans hp
  storeVector _ _ _ h _ := nomatch h

end Part

namespace Hardware

/-- What leaves the vector table register alone writes no vector either. -/
theorem storesNothing_of_among {rs : List Register} (hvtor : .vtor ∉ rs) (c : Access)
    (hc : c.among rs = true) : (!c.stores) = true := by
  cases c with
  | storeVector slot entry => exact absurd (of_decide_eq_true hc) hvtor
  | read | write | poll | await | loadVector => rfl

/-- Only two services access the vector table register. -/
theorem vtor_not_mem_registers {service : Service} (hreset : service ≠ .resetClocks)
    (hstubs : service ≠ .stubVectors) : Register.vtor ∉ service.registers := by
  cases service with
  | resetClocks => exact absurd rfl hreset
  | stubVectors => exact absurd rfl hstubs
  | initialise | configureOscillators | configureBusClocks | configurePeripheralClocks
  | resetSystem => simp [Service.registers]
  | enableClock gate => cases h : gate.bus <;> simp [Service.registers, Register.enable, h]
  | pulseReset line => cases h : line.bus <;> simp [Service.registers, Register.reset?, h]
  | configurePin | releasePin => simp [Service.registers, portRegisters]

/-- No service but the one that installs the stubs writes a vector. -/
theorem provide_storesNothing (ceiling : Log.Ceiling) {service : Service}
    (h : service ≠ .stubVectors) :
    (provide ceiling service).CallsOnly fun c => !c.stores := by
  by_cases hreset : service = .resetClocks
  · subst hreset
    exact .bind (resetClocks_among.mono (storesNothing_of_among (by decide))) fun _ => .write _ rfl
  · exact (provide_among ceiling service).mono
      (storesNothing_of_among (vtor_not_mem_registers hreset h))

end Hardware

/-! ## The handlers in force -/

/-- A table goes on serving while nothing is written to it and it stays in
force. -/
theorem Part.Serves.congr {q : Part} (h : p.Serves flash) (hmemory : q.memory = p.memory)
    (hvtor : q.peek .vtor = p.peek .vtor) : q.Serves flash := by
  obtain ⟨hflash, hvectors⟩ := Prod.mk.inj hmemory
  refine ⟨hflash.trans h.flash_eq, fun slot hslot => ?_⟩
  rw [hvtor, ← h.handler slot hslot, loadVector, loadVector, hflash, hvectors]

/-- What leaves the vector table register alone keeps the handlers in force. -/
theorem Part.serves_keeps (t : Temper) (flash : Nat → Word) {rs : List Register}
    (hvtor : .vtor ∉ rs) : (simulated t).Keeps (Access.among rs) (Part.Serves flash) where
  read r p hok hp :=
    hp.congr (p.memory_tick r) ((peek_keeps t hvtor nofun _).read r p hok rfl)
  write r v p hok hp :=
    hp.congr (p.memory_write t r v) ((peek_keeps t hvtor nofun _).write r v p hok rfl)
  storeVector _ _ _ hok _ := absurd (of_decide_eq_true hok) hvtor

/-- Whatever was in force, afterwards it is the table in flash. -/
theorem Part.serves_write_flash (ht : t.Unlatched) (p : Part) :
    (p.write t .vtor flashTable).Serves p.flash := by
  have hvtor : (p.poke .vtor flashTable).peek .vtor ≠ ramTable := by
    rw [peek_poke_self]
    decide
  rw [Register.vtor_plain.write_eq ht rfl]
  exact serves_of_flash hvtor

/-- The reset of the clocks puts the table in flash in force. -/
theorem Hardware.resetPart_serves (ht : t.Unlatched) {q : Part}
    (hreset : (provided (simulated t) patience ceiling).respond .resetClocks p = (.ok (), q)) :
    q.Serves p.flash := by
  obtain ⟨log, hrun⟩ := run_of_respond hreset
  obtain ⟨_, u, _, _, hclocks, hwrite⟩ := Proc.run_bind_ok hrun
  have hstores : resetClocks.CallsOnly fun c => !c.stores :=
    resetClocks_among.mono (storesNothing_of_among (by decide))
  have hmemory : (resetClocks.run ((simulated t).handler patience) p).state.memory = p.memory :=
    (hstores.keeps (Part.memory_keeps t p.memory) rfl).2
  rw [hclocks] at hmemory
  obtain rfl : u.write t .vtor flashTable = q := congrArg Prod.snd (Proc.respond_of_run hwrite)
  exact (Prod.mk.inj hmemory).1 ▸ u.serves_write_flash ht

/-- Whatever a service does, at every moment on the way the table in force has
the exceptions of the one in flash. -/
theorem Hardware.provide_serves (ht : t.Unlatched) (patience : Nat) (ceiling : Log.Ceiling)
    (service : Service) (hp : p.Serves flash) :
    (∀ e ∈ (provide ceiling service).history (simulated t) patience p, e.after.Serves flash) ∧
      ((provide ceiling service).run ((simulated t).handler patience) p).state.Serves flash := by
  suffices hevents : ∀ e ∈ (provide ceiling service).history (simulated t) patience p,
      e.after.Serves flash from ⟨hevents, Proc.holds_at_end hp hevents⟩
  by_cases hreset : service = .resetClocks
  · subst hreset
    obtain ⟨hevents, hend⟩ : (∀ e ∈ resetClocks.history (simulated t) patience p,
        Part.Serves flash e.before ∧ Part.Serves flash e.after) ∧
        (resetClocks.run ((simulated t).handler patience) p).state.Serves flash :=
      resetClocks_among.keeps (Part.serves_keeps t flash (by decide)) hp
    refine Proc.forall_mem_history_bind.mpr ⟨fun e he => (hevents e he).2, ?_⟩
    rintro _ u log hrun e he
    rw [hrun] at hend
    obtain rfl : e = _ := List.mem_singleton.mp he
    exact hend.flash_eq ▸ u.serves_write_flash ht
  by_cases hstubs : service = .stubVectors
  · subst hstubs
    exact (installStubs_ensures ht hp).guarded
  · exact fun e he => (((provide_among ceiling service).keeps
      (Part.serves_keeps t flash (vtor_not_mem_registers hreset hstubs)) hp).1 e he).2

/-! ## Sequences -/

/-- The calls of a sequence that starts with a reset of the clocks. -/
theorem requests_afterReset {σ α : Type} (h : Handler services σ) (x : Sequence α) (s : σ) :
    (Sequence.ask .resetClocks >>= fun _ => x).requests h s =
      (s, .resetClocks) :: match h.respond .resetClocks s with
        | (.ok _, u) => x.requests h u
        | (.error _, _) => [] := by
  rw [Sequence.ask, Proc.request, Proc.call_bind, Proc.requests]
  rcases h.respond .resetClocks s with ⟨_ | _, _⟩ <;> rfl

/-- All calls after the reset find the exceptions of the table in flash. -/
theorem later_calls_served {α : Type} (ht : t.Unlatched) (x : Sequence α) :
    ∀ call ∈ ((Sequence.ask .resetClocks >>= fun _ => x).requests
        (provided (simulated t) patience ceiling) p).tail,
      call.1.Serves p.flash := by
  rw [requests_afterReset, List.tail_cons]
  split
  · next q hreset =>
    refine Proc.forall_mem_requests (fun c v answer w hv hrespond => ?_) x
      (resetPart_serves ht hreset)
    obtain ⟨-, rfl⟩ := Prod.mk.inj hrespond
    exact (provide_serves ht patience ceiling c hv).2
  · exact List.forall_mem_nil _

/-- After a reset of the clocks the stubs may be installed as often as one likes,
with any other calls in between: each time the table is the stubbed one of the
table in flash, and in force. No other call changes a slot of it. -/
theorem stubs_installed_after_reset {α : Type} (ht : t.Unlatched) (patience : Nat)
    (ceiling : Log.Ceiling) (p : Part) (x : Sequence α) :
    ∀ call ∈ (Sequence.ask .resetClocks >>= fun _ => x).requests
        (provided (simulated t) patience ceiling) p,
      (call.2 = .stubVectors → ∃ q log,
        (provide ceiling .stubVectors).run ((simulated t).handler patience) call.1 =
          ⟨.ok (), q, log⟩ ∧
        q.vectors = stubbedTable p.flash ∧ q.peek .vtor = ramTable) ∧
      (call.2 ≠ .stubVectors → ∀ e ∈ (provide ceiling call.2).history (simulated t) patience call.1,
        e.after.vectors = call.1.vectors) := by
  rintro ⟨u, service⟩ hcall
  refine ⟨?_, fun hother e he => ?_⟩
  · rintro rfl
    have hserves : u.Serves p.flash := by
      rw [requests_afterReset, List.mem_cons] at hcall
      rcases hcall with hfirst | hlater
      · cases hfirst
      · exact later_calls_served ht x _ hlater
    have hinstall : Ensures (simulated t) patience _ installStubs u _ :=
      installStubs_ensures ht hserves
    obtain ⟨-, _, q, log, hrun, -, hvectors, hvtor⟩ := hinstall
    exact ⟨q, log, hrun, hvectors, hvtor⟩
  · have hmemory := ((provide_storesNothing ceiling hother).keeps
      (Part.memory_keeps t u.memory) rfl).1 e he
    exact (Prod.mk.inj hmemory.2).2

/-- The stubs are installed three times: over the table in flash, over the one
they are in themselves, and again over the one in flash. -/
theorem stubs_installed_three_times :
    Temper.prompt.Unlatched ∧
    let calls := (Sequence.ask .resetClocks >>= fun _ => do
        Sequence.ask .stubVectors
        Sequence.ask .stubVectors
        Sequence.ask .resetClocks
        Sequence.ask .stubVectors).requests
      (provided (simulated .prompt) 4 Log.Ceiling.all) (.powerOn Part.bootVector)
    calls.map Prod.snd = [.resetClocks, .stubVectors, .stubVectors, .resetClocks, .stubVectors] ∧
    calls.map (·.1.peek .vtor) = [0, flashTable, ramTable, ramTable, flashTable] ∧
    ∀ call ∈ calls,
      (call.2 = .stubVectors → ∃ q log,
        (provide Log.Ceiling.all .stubVectors).run ((simulated .prompt).handler 4) call.1 =
          ⟨.ok (), q, log⟩ ∧
        q.vectors = stubbedTable Part.bootVector ∧ q.peek .vtor = ramTable) ∧
      (call.2 ≠ .stubVectors → ∀ e ∈ (provide Log.Ceiling.all call.2).history (simulated .prompt) 4
        call.1, e.after.vectors = call.1.vectors) :=
  ⟨Temper.prompt_unlatched, by decide +kernel, by decide +kernel,
    stubs_installed_after_reset Temper.prompt_unlatched 4 Log.Ceiling.all
      (.powerOn Part.bootVector) _⟩

/-- From the reset of the clocks on, whatever is called, there is no moment at
which a system exception would not get the handler of the table in flash. -/
theorem exceptions_served_after_reset {α : Type} (ht : t.Unlatched) (patience : Nat)
    (ceiling : Log.Ceiling) (p : Part) (x : Sequence α) :
    ∀ call ∈ ((Sequence.ask .resetClocks >>= fun _ => x).requests
        (provided (simulated t) patience ceiling) p).tail,
      ∀ e ∈ (provide ceiling call.2).history (simulated t) patience call.1,
        e.after.Serves p.flash :=
  fun call hcall =>
    (provide_serves ht patience ceiling call.2 (later_calls_served ht x call hcall)).1

end BringUp
