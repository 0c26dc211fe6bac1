import BringUp.Proofs.Agreement
import BringUp.Simulation.Part

/-!
What a single access does to a simulated part whose registers have no stuck
bits.

* `Temper.Unlatched`: no register has stuck bits; `Temper.prompt` is an example.
* `foldl_view`: what each step leaves alone, all of them leave alone. The flags
  of a register are counted down and react one after the other.
* `Passed r p q`: time passed at register `r`. Its status flags may have
  settled, and nothing else is different.
* `Wrote r v p q`: the word `v` went into register `r`. Its status flags are
  as they were, as the program wrote them, or settled.

Main statements: a read passes time at its register (`Part.passed_tick`), and
a write that is not ignored writes the word, but a reset of the backup domain
leaves nothing of it (`Part.wrote_write`).

Neither relation mentions delays or counts. Whatever is shown from them holds
for every behaviour of the flags, also for flags that never settle.
-/

namespace BringUp

/-- No register of the part has stuck bits. -/
def Temper.Unlatched (t : Temper) : Prop :=
  ∀ r, t.latch r = none

/-- A part without stuck bits whose flags follow one read later. -/
def Temper.prompt : Temper where
  delay _ := ⟨some 1, some 1⟩
  statusReadOnly := true
  backupResets := true
  backupLocked := true
  powerGated := true
  portsGated := true
  transmitDelay := 0
  latch _ := none

theorem Temper.prompt_unlatched : prompt.Unlatched :=
  fun _ => rfl

/-- The register of a USART's status, which changes while a byte is sent. -/
def Register.IsUsartStatus (r : Register) : Prop :=
  ∃ u, r = .usart u .sr

/-! ## Flags within a word -/

namespace StatusFlag

theorem status_subset (f : StatusFlag) : f.status &&& statusOf f.register = f.status := by
  cases f <;> decide

/-- Control bits are no status bits, of no flag of the register. -/
theorem control_disjoint (f : StatusFlag) :
    f.control &&& ~~~statusOf f.register = f.control := by
  cases f <;> decide

theorem status_disjoint {f g : StatusFlag} (hr : f.register = g.register) (h : f ≠ g) :
    f.status &&& g.status = 0 := by
  cases f <;> cases g <;> first | decide | simp_all [register]

/-- The reset bit of the backup domain is no status bit, of no register. -/
theorem reset_not_status (r : Register) : (~~~statusOf r).getLsbD 16 = true := by
  cases r <;> simp [statusOf, ofRegister, status, control, distance]

theorem wanted_eq (f : StatusFlag) (w : Word) :
    f.wanted w = (w <<< f.distance) &&& f.status := by
  simp only [wanted, status, BitVec.shiftLeft_and_distrib]

/-- The wanted status lies within the status bits. -/
theorem wanted_and_status (f : StatusFlag) (w : Word) :
    f.wanted w &&& f.status = f.wanted w := by
  rw [wanted_eq, BitVec.and_assoc, BitVec.and_self]

theorem shown_settle (f : StatusFlag) (w : Word) : f.shown (f.settle w) = f.wanted w :=
  Word.replaced_and w (f.wanted w) f.status (f.wanted_and_status w)

/-- Settling a flag changes its own status bits only. -/
theorem agreeOn_settle (f : StatusFlag) (w : Word) {mask : Word}
    (h : f.status &&& mask = 0) : Word.AgreeOn mask (f.settle w) w := by
  have hwanted : f.wanted w &&& mask = 0 := by
    rw [← wanted_and_status, BitVec.and_assoc, h]
    simp
  exact (Word.agreeOn_or _ hwanted).trans (Word.agreeOn_andNot _ h)

end StatusFlag

/-! ## Time passing at a register -/

/-- What each step leaves alone, all of them leave alone. -/
theorem foldl_view {σ ι α : Type} {step : σ → ι → σ} {steps : List ι} {s : σ} (view : σ → α)
    (h : ∀ i ∈ steps, ∀ s, view (step s i) = view s) : view (steps.foldl step s) = view s := by
  induction steps generalizing s with
  | nil => rfl
  | cons i steps ih =>
      rw [List.forall_mem_cons] at h
      rw [List.foldl_cons, ih h.2, h.1]

/-- Time passed at register `r`: its status flags may have settled, and
nothing else is different. -/
structure Passed (r : Register) (p q : Part) : Prop where
  other : ∀ s, s ≠ r → q.peek s = p.peek s
  steady : Word.AgreeOn (~~~StatusFlag.statusOf r) (q.peek r) (p.peek r)
  shown : ∀ f : StatusFlag, f.register = r →
    f.shown (q.peek r) = f.shown (p.peek r) ∨ f.shown (q.peek r) = f.wanted (p.peek r)

namespace Passed

theorem refl (r : Register) (p : Part) : Passed r p p :=
  ⟨fun _ _ => rfl, .refl _ _, fun _ _ => .inl rfl⟩

/-- One flag settles, after others may have. -/
theorem settle {r : Register} {p q q' : Part} {f : StatusFlag} (h : Passed r p q)
    (hf : f.register = r) (hother : ∀ s, s ≠ r → q'.peek s = q.peek s)
    (hself : q'.peek r = f.settle (q.peek r)) : Passed r p q' := by
  subst hf
  have hdisjoint : f.status &&& ~~~StatusFlag.statusOf f.register = 0 := by
    cases f <;> decide
  refine ⟨fun s hs => (hother s hs).trans (h.other s hs), ?_, fun g hg => ?_⟩
  · rw [hself]
    exact (f.agreeOn_settle _ hdisjoint).trans h.steady
  · rw [hself]
    by_cases hfg : f = g
    · subst hfg
      right
      rw [StatusFlag.shown_settle]
      exact h.steady.wanted f.control_disjoint
    · have hkeep : Word.AgreeOn g.status (f.settle (q.peek f.register)) (q.peek f.register) :=
        f.agreeOn_settle _ (StatusFlag.status_disjoint hg.symm hfg)
      rw [hkeep.shown (BitVec.and_self)]
      exact h.shown g hg

/-- Several flags of one register may settle, one after the other. -/
theorem foldl {r : Register} {step : Part → StatusFlag → Part}
    (hstep : ∀ p f, f.register = r →
      (∀ s, (step p f).peek s = p.peek s) ∨
      ((∀ s, s ≠ r → (step p f).peek s = p.peek s) ∧
        (step p f).peek r = f.settle (p.peek r)))
    {flags : List StatusFlag} (hflags : ∀ f ∈ flags, f.register = r) {p q : Part}
    (h : Passed r p q) : Passed r p (flags.foldl step q) := by
  induction flags generalizing q with
  | nil => exact h
  | cons f flags ih =>
      have hf : f.register = r := hflags f (List.mem_cons_self ..)
      refine ih (fun g hg => hflags g (List.mem_cons_of_mem _ hg)) ?_
      rcases hstep q f hf with hsame | ⟨hother, hself⟩
      · refine ⟨fun s hs => (hsame s).trans (h.other s hs), ?_, fun g hg => ?_⟩
        · rw [hsame r]
          exact h.steady
        · rw [hsame r]
          exact h.shown g hg
      · exact h.settle hf hother hself

end Passed

namespace Part

variable {t : Temper} {r : Register}

@[simp]
theorem peek_poke_self (p : Part) (r : Register) (w : Word) : (p.poke r w).peek r = w := by
  simp [poke, peek]

theorem peek_poke_of_ne (p : Part) {r s : Register} (h : s ≠ r) (w : Word) :
    (p.poke r w).peek s = p.peek s := by
  simp [poke, peek, Table.get_set_of_ne _ h.symm]

theorem countDown_cases (p : Part) {f : StatusFlag} (hf : f.register = r) :
    (∀ s, (p.countDown f).peek s = p.peek s) ∨
    ((∀ s, s ≠ r → (p.countDown f).peek s = p.peek s) ∧
      (p.countDown f).peek r = f.settle (p.peek r)) := by
  subst hf
  unfold countDown
  split
  · exact .inl fun _ => rfl
  · right
    exact ⟨fun s hs => Table.get_set_of_ne _ hs.symm _, Table.get_set_self _ _ _⟩
  · exact .inl fun _ => rfl

theorem react_cases (t : Temper) (p : Part) {f : StatusFlag} (hf : f.register = r) :
    (∀ s, (p.react t f).peek s = p.peek s) ∨
    ((∀ s, s ≠ r → (p.react t f).peek s = p.peek s) ∧
      (p.react t f).peek r = f.settle (p.peek r)) := by
  subst hf
  unfold react
  dsimp only
  split
  · exact .inl fun _ => rfl
  · split
    · exact .inl fun _ => rfl
    · split
      · exact .inl fun _ => rfl
      · right
        exact ⟨fun s hs => peek_poke_of_ne p hs _, peek_poke_self p _ _⟩
      · exact .inl fun _ => rfl

private theorem register_of_mem {f : StatusFlag} (h : f ∈ StatusFlag.ofRegister r) :
    f.register = r :=
  (StatusFlag.mem_ofRegister f r).mp h

/-- A read passes time at its register. -/
theorem passed_tick (p : Part) (hr : ¬r.IsUsartStatus) : Passed r p (p.tick r) := by
  unfold tick
  split
  · next u => exact absurd ⟨u, rfl⟩ hr
  · exact (Passed.refl r p).foldl (fun q f hf => q.countDown_cases hf)
      fun f hf => register_of_mem hf

/-- No read changes another register. -/
theorem peek_tick_of_ne (p : Part) {s : Register} (h : s ≠ r) :
    (p.tick r).peek s = p.peek s := by
  by_cases hr : r.IsUsartStatus
  · obtain ⟨u, rfl⟩ := hr
    simp only [tick, countDownSending]
    split
    · rfl
    · exact Table.get_set_of_ne _ h.symm _
    · rfl
  · exact (p.passed_tick hr).other s h

private theorem ne_of_mem {f g : StatusFlag} (h : f.register ≠ r)
    (hg : g ∈ StatusFlag.ofRegister r) : g ≠ f :=
  fun heq => h (heq ▸ register_of_mem hg)

/-- A change that comes closer shows in the registers and in the count, and
nowhere else. -/
theorem countDown_eq (p : Part) (f : StatusFlag) :
    ∃ registers pending, p.countDown f = { p with registers, pending } := by
  unfold countDown
  split <;> exact ⟨_, _, rfl⟩

/-- So does a reaction to a write. -/
theorem react_eq (t : Temper) (p : Part) (f : StatusFlag) :
    ∃ registers pending, p.react t f = { p with registers, pending } := by
  unfold react
  dsimp only
  split
  · exact ⟨_, _, rfl⟩
  · split
    · exact ⟨_, _, rfl⟩
    · split <;> exact ⟨_, _, rfl⟩

theorem pending_countDown (p : Part) {f g : StatusFlag} (h : g ≠ f) :
    (p.countDown g).pending.get f = p.pending.get f := by
  unfold countDown
  split
  · rfl
  · exact Table.get_set_of_ne _ h _
  · exact Table.get_set_of_ne _ h _

theorem pending_react (t : Temper) (p : Part) {f g : StatusFlag} (h : g ≠ f) :
    (p.react t g).pending.get f = p.pending.get f := by
  unfold react
  dsimp only
  split
  · exact Table.get_set_of_ne _ h _
  · split
    · rfl
    · split
      · rfl
      · rfl
      · exact Table.get_set_of_ne _ h _

/-- A read brings no change of another register closer. -/
theorem pending_tick_of_ne (p : Part) {f : StatusFlag} (h : f.register ≠ r) :
    (p.tick r).pending.get f = p.pending.get f := by
  unfold tick
  split
  · next u =>
    unfold countDownSending
    split <;> rfl
  · exact foldl_view (·.pending.get f) fun g hg q => pending_countDown q (ne_of_mem h hg)

/-- A write starts and cancels no change of another register. -/
theorem pending_write_of_ne (t : Temper) (v : Word) (p : Part) {f : StatusFlag}
    (h : f.register ≠ r) : (p.write t r v).pending.get f = p.pending.get f := by
  unfold write
  split
  · rfl
  · dsimp only
    split
    · next u =>
      unfold startSending
      split <;> rfl
    · exact foldl_view (·.pending.get f) fun g hg q => pending_react t q (ne_of_mem h hg)

end Part

/-! ## Words going into a register -/

/-- The word `v` went into register `r`: its status flags are as they were, as
the program wrote them, or settled. -/
structure Wrote (r : Register) (v : Word) (p q : Part) : Prop where
  other : ∀ s, s ≠ r → ¬s.IsUsartStatus → q.peek s = p.peek s
  steady : Word.AgreeOn (~~~StatusFlag.statusOf r) (q.peek r) v
  shown : ∀ f : StatusFlag, f.register = r →
    f.shown (q.peek r) = f.shown (p.peek r) ∨ f.shown (q.peek r) = f.shown v ∨
      f.shown (q.peek r) = f.wanted v

namespace Part

variable {t : Temper} {r : Register}

/-- A transmission shows in the status of its USART only. -/
theorem peek_startSending (t : Temper) (p : Part) (u : Usart) {s : Register}
    (hs : ¬s.IsUsartStatus) : (p.startSending t u).peek s = p.peek s := by
  unfold startSending
  split
  · rfl
  · exact Table.get_set_of_ne _ (fun heq => hs ⟨u, heq.symm⟩) _

/-- No write changes another register, but for the status of a USART. -/
theorem peek_write_of_ne (t : Temper) (v : Word) (p : Part) {s : Register} (h : s ≠ r)
    (hs : ¬s.IsUsartStatus) : (p.write t r v).peek s = p.peek s := by
  unfold write
  split
  · rfl
  · have hpoke := p.peek_poke_of_ne h (stored t r (p.peek r) v)
    dsimp only
    split
    · next u _ => exact (peek_startSending t _ u hs).trans hpoke
    · have hreact := (Passed.refl r (p.poke r (stored t r (p.peek r) v))).foldl
        (fun q f hf => q.react_cases t hf) (fun f hf => register_of_mem hf)
      exact (hreact.other s h).trans hpoke

theorem write_of_ignores {v : Word} {p : Part} (h : p.ignores t r = true) :
    p.write t r v = p := by
  simp [write, h]

/-- Protecting the status bits changes no others. -/
theorem agreeOn_protectStatus (t : Temper) (r : Register) (old v : Word) :
    Word.AgreeOn (~~~StatusFlag.statusOf r) (protectStatus t r old v) v := by
  unfold protectStatus
  split
  · unfold Word.AgreeOn
    ext i hi
    simp only [BitVec.getElem_and, BitVec.getElem_or, BitVec.getElem_not]
    cases (StatusFlag.statusOf r)[i] <;> simp
  · rfl

/-- The status of a flag is the old one if it is protected, else the one that
the program wrote. -/
theorem shown_protectStatus (t : Temper) {r : Register} (old v : Word) {f : StatusFlag}
    (hf : f.register = r) :
    f.shown (protectStatus t r old v) = f.shown old ∨
      f.shown (protectStatus t r old v) = f.shown v := by
  subst hf
  unfold protectStatus
  split
  · left
    unfold StatusFlag.shown
    ext i hi
    have hsub := Word.getElem_of_subset f.status_subset i hi
    simp only [BitVec.getElem_and, BitVec.getElem_or, BitVec.getElem_not]
    cases hs : f.status[i] <;> simp_all
  · exact .inr rfl

/-- The word that counts of what the program writes: all of it, unless it
resets the backup domain. -/
theorem stored_of_unlatched (ht : t.Unlatched) (r : Register) (old v : Word) :
    stored t r old v = resetBackup t r (protectStatus t r old v) := by
  simp [stored, forceBits, ht r]

private theorem wrote_poke (ht : t.Unlatched) (r : Register) (v : Word) (p : Part) :
    Wrote r (resetBackup t r v) p (p.poke r (stored t r (p.peek r) v)) := by
  have hbit : (protectStatus t r (p.peek r) v).getLsbD 16 = v.getLsbD 16 := by
    exact (agreeOn_protectStatus t r (p.peek r) v).getLsbD (StatusFlag.reset_not_status r)
  rw [stored_of_unlatched ht]
  refine ⟨fun s hs _ => peek_poke_of_ne p hs _, ?_, fun f hf => ?_⟩
  · rw [peek_poke_self]
    simp only [resetBackup, hbit]
    split
    · rfl
    · exact agreeOn_protectStatus t r _ v
  · rw [peek_poke_self]
    simp only [resetBackup, hbit]
    split
    · exact .inr (.inl rfl)
    · exact (shown_protectStatus t _ v hf).imp_right .inl

/-- A write that is not ignored writes the word, but a reset of the backup
domain leaves nothing of it. -/
theorem wrote_write (ht : t.Unlatched) {v : Word} {p : Part}
    (h : p.ignores t r = false) : Wrote r (resetBackup t r v) p (p.write t r v) := by
  have hpoke := wrote_poke ht r v p
  simp only [write, h, Bool.false_eq_true, if_false]
  split
  · next u =>
    have hdr : ¬(Register.usart u .dr).IsUsartStatus := by
      rintro ⟨u', h'⟩
      cases h'
    refine ⟨fun s hs hs' => (peek_startSending t _ u hs').trans (hpoke.other s hs hs'), ?_,
      fun f hf => ?_⟩
    · rw [peek_startSending t _ u hdr]
      exact hpoke.steady
    · cases f <;> cases hf
  · have hreact := (Passed.refl r (p.poke r (stored t r (p.peek r) v))).foldl
      (fun q f hf => q.react_cases t hf) (fun f hf => register_of_mem hf)
    refine ⟨fun s hs hs' => (hreact.other s hs).trans (hpoke.other s hs hs'),
      hreact.steady.trans hpoke.steady, fun f hf => ?_⟩
    rcases hreact.shown f hf with hkept | hsettled
    · rw [hkept]
      exact hpoke.shown f hf
    · rw [hsettled]
      right; right
      subst hf
      exact hpoke.steady.wanted f.control_disjoint

end Part

end BringUp
