import BringUp.Proofs.Calls
import BringUp.Proofs.PartAccess

/-!
Status flags that follow their control bits in time.

* `StatusFlag.budget`: the reads that a driver spends on waiting for a flag.
* `Temper.Cooperative`: no stuck bits, and every flag that is waited for
  settles within its budget, in both directions.
* `Part.Follows f bound p`: the flag is settled, or a change is under way that
  takes fewer than `bound` reads.
* `Part.Tracking`: all flags that are waited for follow within their budgets.
* `Part.Tracks watched`: the flags that are watched do.
* `Part.Paced`: no change under way takes longer than the budget of its flag.

Main statements: a cooperative part keeps tracking, whatever is read or
written (`Part.tracks_keeps`), a poll that accepts the settled status of a flag
succeeds (`Part.Follows.poll`), and every write of a register makes its flags
follow (`Part.Follows.of_write`).

The count of a change under way is what a poll makes progress in: each read of
the register brings it down by one, and at zero the flag is settled.
-/

namespace BringUp

namespace StatusFlag

/-- The reads that a driver spends on waiting for the flag. Nothing waits for
the prefetch buffer. -/
def budget : StatusFlag → Option Nat
  | .hsi => some Hardware.Budget.hsi
  | .hse => some Hardware.Budget.hse
  | .pll => some Hardware.Budget.pll
  | .lsi => some Hardware.Budget.lsi
  | .lse => some Hardware.Budget.lse
  | .sysclk => some Hardware.Budget.clockSwitch
  | .prefetch => none

/-- The budgets of the flags that are watched. -/
def budgetIn (watched : StatusFlag → Bool) (f : StatusFlag) : Option Nat :=
  bif watched f then f.budget else none

theorem budget_of_budgetIn {watched : StatusFlag → Bool} {f : StatusFlag} {bound : Nat}
    (h : f.budgetIn watched = some bound) : f.budget = some bound := by
  unfold budgetIn at h
  cases hwatched : watched f with
  | true => rwa [hwatched] at h
  | false =>
      rw [hwatched] at h
      cases h

/-- To settle a flag does not touch what is asked of it. -/
theorem wanted_settle (f : StatusFlag) (w : Word) : f.wanted (f.settle w) = f.wanted w := by
  have hdisjoint : f.status &&& f.control = 0 := by cases f <;> decide
  exact (f.agreeOn_settle w hdisjoint).wanted BitVec.and_self

theorem register_notUsart (f : StatusFlag) : ¬f.register.IsUsartStatus := by
  rintro ⟨u, hu⟩
  cases f <;> cases hu

end StatusFlag

/-- Both changes of a flag are over in fewer than `bound` reads. -/
def Delay.Within (d : Delay) (bound : Nat) : Prop :=
  (∃ n, d.up = some n ∧ n < bound) ∧ ∃ n, d.down = some n ∧ n < bound

/-- No register has stuck bits, and every flag that is waited for settles
before the last read of its budget. -/
structure Temper.Cooperative (t : Temper) : Prop where
  unlatched : t.Unlatched
  settles : ∀ f bound, f.budget = some bound → (t.delay f).Within bound

theorem Temper.prompt_cooperative : prompt.Cooperative where
  unlatched := prompt_unlatched
  settles f bound h := by
    have hbound : 1 < bound := by
      cases f <;> cases h <;> decide
    exact ⟨⟨1, rfl, hbound⟩, ⟨1, rfl, hbound⟩⟩

namespace Part

/-- The flag is settled, or a change is under way that takes fewer than
`bound` reads. -/
structure Follows (f : StatusFlag) (bound : Nat) (p : Part) : Prop where
  pending_lt : p.pending.get f < bound
  settled : p.pending.get f = 0 → f.shown (p.peek f.register) = f.wanted (p.peek f.register)

/-- All flags that are waited for follow within their budgets. -/
def Tracking (p : Part) : Prop :=
  ∀ f bound, f.budget = some bound → p.Follows f bound

/-- The flags that are watched follow within their budgets. -/
def Tracks (watched : StatusFlag → Bool) (p : Part) : Prop :=
  ∀ f bound, f.budgetIn watched = some bound → p.Follows f bound

/-- No change under way takes longer than the budget of its flag. -/
def Paced (p : Part) : Prop :=
  ∀ f bound, f.budget = some bound → p.pending.get f < bound

/-- At power-on all registers are zero, but for the status of the USARTs. -/
theorem peek_powerOn (flash : Nat → Word) {r : Register} (hr : ¬r.IsUsartStatus) :
    (powerOn flash).peek r = 0 := by
  have husart : ∀ u : Usart, Register.usart u .sr ≠ r := fun u hu => hr ⟨u, hu.symm⟩
  simp only [powerOn, peek]
  rw [Table.get_set_of_ne _ (husart _), Table.get_set_of_ne _ (husart _), Table.get_replicate]

/-- Nothing is under way at power-on, and all flags are settled. -/
theorem tracking_powerOn (flash : Nat → Word) : (powerOn flash).Tracking := by
  intro f bound h
  have hbound : 0 < bound := by
    cases f <;> cases h <;> decide
  refine ⟨?_, fun _ => ?_⟩
  · simpa [powerOn] using hbound
  · rw [peek_powerOn flash f.register_notUsart]
    simp [StatusFlag.shown, StatusFlag.wanted]

variable {t : Temper} {f g : StatusFlag} {bound : Nat} {p q : Part}

/-! ## One flag at a time -/

/-- If another flag settles, or none, the bits beside its status are as before. -/
theorem agreeOn_of_other {mask : Word} (hmask : f.register = g.register → g.status &&& mask = 0)
    (hcases : (∀ s, q.peek s = p.peek s) ∨ (∀ s, s ≠ g.register → q.peek s = p.peek s) ∧
      q.peek g.register = g.settle (p.peek g.register)) :
    Word.AgreeOn mask (q.peek f.register) (p.peek f.register) := by
  rcases hcases with hsame | ⟨hother, hsettled⟩
  · rw [hsame]
    exact .refl _ _
  · by_cases hr : f.register = g.register
    · rw [hr, hsettled]
      exact g.agreeOn_settle _ (hmask hr)
    · rw [hother _ hr]
      exact .refl _ _

/-- So a flag shows what it did if another one settles, or none. -/
theorem shown_of_other (hg : g ≠ f) (hcases : (∀ s, q.peek s = p.peek s) ∨
      (∀ s, s ≠ g.register → q.peek s = p.peek s) ∧
        q.peek g.register = g.settle (p.peek g.register)) :
    f.shown (q.peek f.register) = f.shown (p.peek f.register) :=
  (agreeOn_of_other (fun hr => StatusFlag.status_disjoint hr.symm hg) hcases).shown BitVec.and_self

/-- And what is asked of it is what it was. -/
theorem wanted_of_other (hcases : (∀ s, q.peek s = p.peek s) ∨
      (∀ s, s ≠ g.register → q.peek s = p.peek s) ∧
        q.peek g.register = g.settle (p.peek g.register)) :
    f.wanted (q.peek f.register) = f.wanted (p.peek f.register) := by
  have hcontrol : f.register = g.register → g.status &&& f.control = 0 := by
    intro hr
    cases f <;> cases g <;> first | decide | cases hr
  exact (agreeOn_of_other hcontrol hcases).wanted BitVec.and_self

namespace Follows

/-- A flag follows as before if nothing happened to it. -/
theorem of_same (hp : p.Follows f bound) (hpending : q.pending.get f = p.pending.get f)
    (hshown : f.shown (q.peek f.register) = f.shown (p.peek f.register))
    (hwanted : f.wanted (q.peek f.register) = f.wanted (p.peek f.register)) :
    q.Follows f bound where
  pending_lt := by
    rw [hpending]
    exact hp.pending_lt
  settled h := by
    rw [hshown, hwanted]
    exact hp.settled (hpending ▸ h)

/-- What another flag of the register does makes no difference. -/
theorem of_other (hp : p.Follows f bound) (hg : g ≠ f)
    (hpending : q.pending.get f = p.pending.get f)
    (hcases : (∀ s, q.peek s = p.peek s) ∨
      (∀ s, s ≠ g.register → q.peek s = p.peek s) ∧
        q.peek g.register = g.settle (p.peek g.register)) : q.Follows f bound :=
  hp.of_same hpending (shown_of_other hg hcases) (wanted_of_other hcases)

/-- A settled flag follows within any bound. -/
theorem of_settle (hbound : 0 < bound) (w : Word) (hpending : q.pending.get f = 0)
    (hpeek : q.peek f.register = f.settle w) : q.Follows f bound := by
  refine ⟨by rw [hpending]; exact hbound, fun _ => ?_⟩
  rw [hpeek, StatusFlag.shown_settle, StatusFlag.wanted_settle]

theorem countDown (hp : p.Follows f bound) (g : StatusFlag) : (p.countDown g).Follows f bound := by
  by_cases hg : g = f
  · subst hg
    have hlt := hp.pending_lt
    unfold Part.countDown
    split
    · exact hp
    · exact of_settle (by omega) (p.peek g.register) (by simp) (by simp [Part.peek])
    · next n hn =>
      rw [hn] at hlt
      refine ⟨?_, fun h => ?_⟩
      · simp only [Table.get_set_self]
        omega
      · simp at h
  · exact hp.of_other hg (p.pending_countDown hg) (p.countDown_cases rfl)

/-- A flag reacts to whatever is in its register. -/
theorem react_self (ht : (t.delay f).Within bound) (hp : p.pending.get f < bound) :
    (p.react t f).Follows f bound := by
  obtain ⟨⟨up, hup, hup_lt⟩, ⟨down, hdown, hdown_lt⟩⟩ := ht
  have hdelay : ∀ w, ∃ n, delayOf t f w = some n ∧ n < bound := by
    intro w
    unfold delayOf
    split
    · exact ⟨up, hup, hup_lt⟩
    · exact ⟨down, hdown, hdown_lt⟩
  unfold Part.react
  dsimp only
  split
  · next hsettled => exact ⟨by simp only [Table.get_set_self]; omega, fun _ => hsettled.symm⟩
  · split
    · next hpending => exact ⟨hp, fun h => absurd h hpending⟩
    · next hquiet =>
      have hquiet : p.pending.get f = 0 := Decidable.not_not.mp hquiet
      obtain ⟨n, hn, hlt⟩ := hdelay (p.peek f.register)
      rw [hn]
      cases n with
      | zero => exact of_settle (by omega) _ hquiet (peek_poke_self ..)
      | succ n =>
          refine ⟨?_, fun h => ?_⟩
          · simp only [Table.get_set_self]
            exact hlt
          · simp at h

theorem react (ht : (t.delay f).Within bound) (hp : p.Follows f bound) (g : StatusFlag) :
    (p.react t g).Follows f bound := by
  by_cases hg : g = f
  · subst hg
    exact react_self ht hp.pending_lt
  · exact hp.of_other hg (p.pending_react t hg) (p.react_cases t rfl)

/-- Steps that let a flag follow one by one let it follow together. -/
theorem foldl {step : Part → StatusFlag → Part}
    (hstep : ∀ p g, p.Follows f bound → (step p g).Follows f bound) (flags : List StatusFlag)
    (hp : p.Follows f bound) : (flags.foldl step p).Follows f bound := by
  induction flags generalizing p with
  | nil => exact hp
  | cons g flags ih => exact ih (hstep p g hp)

/-- Once all flags of its register have reacted, the flag follows. -/
theorem foldl_react (ht : (t.delay f).Within bound) {flags : List StatusFlag} (hf : f ∈ flags)
    (hp : p.pending.get f < bound) : (flags.foldl (Part.react t) p).Follows f bound := by
  induction flags generalizing p with
  | nil => cases hf
  | cons g flags ih =>
      rw [List.foldl_cons]
      by_cases hg : g = f
      · subst hg
        exact foldl (fun q g' hq => hq.react ht g') flags (react_self ht hp)
      · have hmem : f ∈ flags := (List.mem_cons.mp hf).resolve_left (Ne.symm hg)
        refine ih hmem ?_
        rw [p.pending_react t hg]
        exact hp

end Follows

/-! ## Accesses -/

/-- A read of a flag's register counts down the changes of all its flags. -/
theorem tick_register (p : Part) (f : StatusFlag) :
    p.tick f.register = (StatusFlag.ofRegister f.register).foldl Part.countDown p := by
  cases f <;> rfl

/-- A write of a flag's register lets all its flags react, unless it is
ignored. -/
theorem write_register (t : Temper) (p : Part) (f : StatusFlag) (v : Word) :
    p.write t f.register v = if p.ignores t f.register then p else
      (StatusFlag.ofRegister f.register).foldl (Part.react t)
        (p.poke f.register (stored t f.register (p.peek f.register) v)) := by
  cases f <;> rfl

theorem pending_countDown_self (p : Part) (f : StatusFlag) :
    (p.countDown f).pending.get f = p.pending.get f - 1 := by
  unfold countDown
  split <;> simp_all

/-- A read of its register brings a change of the flag closer. -/
theorem pending_tick_self (p : Part) (f : StatusFlag) :
    (p.tick f.register).pending.get f = p.pending.get f - 1 := by
  rw [tick_register]
  cases f <;>
    simp [StatusFlag.ofRegister, StatusFlag.register, pending_countDown, pending_countDown_self]

namespace Follows

/-- Reads let a flag follow. -/
theorem tick (hp : p.Follows f bound) (r : Register) : (p.tick r).Follows f bound := by
  by_cases hr : f.register = r
  · subst hr
    rw [tick_register]
    exact hp.foldl (fun q g hq => hq.countDown g) _
  · have hpeek : (p.tick r).peek f.register = p.peek f.register := p.peek_tick_of_ne hr
    exact hp.of_same (p.pending_tick_of_ne hr) (congrArg _ hpeek) (congrArg _ hpeek)

/-- Writes do too, as long as the flag takes no longer than that. -/
theorem write (ht : (t.delay f).Within bound) (hp : p.Follows f bound) (r : Register) (v : Word) :
    (p.write t r v).Follows f bound := by
  by_cases hr : f.register = r
  · subst hr
    rw [write_register]
    split
    · exact hp
    · exact foldl_react ht ((StatusFlag.mem_ofRegister f _).mpr rfl) hp.pending_lt
  · have hpeek : (p.write t r v).peek f.register = p.peek f.register :=
      p.peek_write_of_ne t v hr f.register_notUsart
    exact hp.of_same (p.pending_write_of_ne t v hr) (congrArg _ hpeek) (congrArg _ hpeek)

/-- A poll that accepts the settled status comes to see it. -/
theorem poll (hp : p.Follows f bound) {accept : Word → Bool}
    (haccept : ∀ w, Word.AgreeOn f.control w (p.peek f.register) → f.shown w = f.wanted w →
      accept w = true) : ((simulated t).poll f.register accept bound p).1 = true := by
  induction bound generalizing p with
  | zero => exact absurd hp.pending_lt (Nat.not_lt_zero _)
  | succ bound ih =>
      show (if accept (p.peek f.register) then (true, p.tick f.register)
        else (simulated t).poll f.register accept bound (p.tick f.register)).1 = true
      split
      · rfl
      · next hrefused =>
        have hpending : p.pending.get f ≠ 0 := fun hquiet =>
          hrefused (haccept _ (.refl _ _) (hp.settled hquiet))
        have hlt := hp.pending_lt
        -- the change is one read closer, and asks for the same status
        have hnext : (p.tick f.register).Follows f bound := by
          refine ⟨?_, (hp.tick f.register).settled⟩
          rw [pending_tick_self]
          omega
        have hcontrol : Word.AgreeOn f.control ((p.tick f.register).peek f.register)
            (p.peek f.register) :=
          (p.passed_tick f.register_notUsart).steady.mono f.control_disjoint
        exact ih hnext fun w hw => haccept w (hw.trans hcontrol)

end Follows

/-- A flag of a cooperative part keeps following, whatever is read or
written. -/
theorem follows_keeps (ht : t.Cooperative) (h : f.budget = some bound) :
    (simulated t).Keeps (fun _ => true) (Part.Follows f bound) where
  read r _ _ hp := hp.tick r
  write r v _ _ hp := hp.write (ht.settles f bound h) r v
  storeVector _ _ _ _ hp := hp.of_same rfl rfl rfl

/-- A cooperative part keeps tracking the flags that are watched. -/
theorem tracks_keeps (ht : t.Cooperative) (watched : StatusFlag → Bool) :
    (simulated t).Keeps (fun _ => true) (Part.Tracks watched) where
  read r p hok hp f bound h :=
    (follows_keeps ht (StatusFlag.budget_of_budgetIn h)).read r p hok (hp f bound h)
  write r v p hok hp f bound h :=
    (follows_keeps ht (StatusFlag.budget_of_budgetIn h)).write r v p hok (hp f bound h)
  storeVector slot entry p hok hp f bound h :=
    (follows_keeps ht (StatusFlag.budget_of_budgetIn h)).storeVector slot entry p hok (hp f bound h)

theorem tracking_keeps (ht : t.Cooperative) :
    (simulated t).Keeps (fun _ => true) Part.Tracking :=
  tracks_keeps ht fun _ => true

/-! ## Without knowing that a flag is settled -/

/-- Once its register has been written, a flag follows. -/
theorem Follows.of_write (ht : t.Cooperative) (h : f.budget = some bound)
    (hp : p.pending.get f < bound) (htakes : p.ignores t f.register = false) (v : Word) :
    (p.write t f.register v).Follows f bound := by
  rw [write_register, if_neg (by rw [htakes]; exact Bool.false_ne_true)]
  exact .foldl_react (ht.settles f bound h) ((StatusFlag.mem_ofRegister f _).mpr rfl) hp

/-- A read brings no count up. -/
theorem pending_tick_le (p : Part) (r : Register) (f : StatusFlag) :
    (p.tick r).pending.get f ≤ p.pending.get f := by
  by_cases hr : f.register = r
  · subst hr
    rw [pending_tick_self]
    exact Nat.sub_le _ _
  · exact Nat.le_of_eq (p.pending_tick_of_ne hr)

/-- No change of a cooperative part ever takes longer. -/
theorem paced_keeps (ht : t.Cooperative) : (simulated t).Keeps (fun _ => true) Part.Paced where
  read r p _ hp f bound h := Nat.lt_of_le_of_lt (p.pending_tick_le r f) (hp f bound h)
  write r v p _ hp f bound h := by
    show (p.write t r v).pending.get f < bound
    by_cases hr : f.register = r
    · subst hr
      cases htakes : p.ignores t f.register with
      | true =>
          rw [write_of_ignores htakes]
          exact hp f bound h
      | false => exact (Follows.of_write ht h (hp f bound h) htakes v).pending_lt
    · rw [p.pending_write_of_ne t v hr]
      exact hp f bound h
  storeVector _ _ _ _ hp := hp

end Part

end BringUp
