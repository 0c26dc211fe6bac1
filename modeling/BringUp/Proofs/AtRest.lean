import BringUp.Proofs.DriverRegisters
import BringUp.Proofs.FlagProgress

/-!
What the registers of a part come to once nothing is under way behind them.

* `Part.Resting p`: no flag is on its way, and no byte is being sent.
* `Part.ComesToRest p q`: time passes for `p`, until it rests as `q`.
* `Part.flagAtRest f p`, `Part.usartAtRest u p`: the status that is shown then.
* `SameAtRest p q`: the two parts come to the same registers.

Main statements: every part comes to rest (`Part.exists_comesToRest`), and
parts that are the same at rest come to the same registers, however the time
passes (`SameAtRest.peek_eq`).

Time passes by reads, and each read brings the changes behind its register
closer. What a flag comes to is fixed all along: the status that is asked of it
while a change is under way, and else the one that it shows.
-/

namespace BringUp

namespace Part

/-- Nothing is under way. -/
structure Resting (p : Part) : Prop where
  pending : ∀ f, p.pending.get f = 0
  sending : ∀ u, p.sending.get u = 0

instance (p : Part) : Decidable p.Resting :=
  decidable_of_iff ((∀ f ∈ Enumerated.all StatusFlag, p.pending.get f = 0) ∧
      ∀ u ∈ Enumerated.all Usart, p.sending.get u = 0)
    ⟨fun h => ⟨fun f => h.1 f (Enumerated.mem_all f), fun u => h.2 u (Enumerated.mem_all u)⟩,
      fun h => ⟨fun f _ => h.pending f, fun u _ => h.sending u⟩⟩

/-- Time passes by reads of registers, one after the other. -/
def elapse (p : Part) (reads : List Register) : Part :=
  reads.foldl tick p

/-- `q` is what becomes of `p` once nothing is under way any more. -/
def ComesToRest (p q : Part) : Prop :=
  ∃ reads, p.elapse reads = q ∧ q.Resting

/-- The status that a flag comes to. -/
def flagAtRest (f : StatusFlag) (p : Part) : Word :=
  if p.pending.get f = 0 then f.shown (p.peek f.register) else f.wanted (p.peek f.register)

/-- The status that a USART comes to. -/
def usartAtRest (u : Usart) (p : Part) : Word :=
  if p.sending.get u = 0 then p.peek (.usart u .sr) else p.peek (.usart u .sr) ||| transmitIdle

variable {t : Temper} {f : StatusFlag} {u : Usart} {bound : Nat} {p q q' : Part} {r : Register}

/-! ## Every part comes to rest -/

theorem elapse_append (p : Part) (before after : List Register) :
    p.elapse (before ++ after) = (p.elapse before).elapse after :=
  List.foldl_append

/-- A transmission is one read closer to its end. -/
theorem sending_tick_self (p : Part) (u : Usart) :
    (p.tick (.usart u .sr)).sending.get u = p.sending.get u - 1 := by
  show (p.countDownSending u).sending.get u = _
  unfold countDownSending
  split <;> simp_all

theorem sending_countDown (p : Part) (f : StatusFlag) : (p.countDown f).sending = p.sending := by
  obtain ⟨_, _, hcount⟩ := p.countDown_eq f
  rw [hcount]

/-- No read starts a transmission. -/
theorem sending_tick_le (p : Part) (r : Register) (u : Usart) :
    (p.tick r).sending.get u ≤ p.sending.get u := by
  unfold tick
  split
  · next u' =>
    by_cases hu : u' = u
    · subst hu
      exact Nat.le_trans (Nat.le_of_eq (p.sending_tick_self u')) (Nat.sub_le _ _)
    · unfold countDownSending
      split
      · exact Nat.le_refl _
      · exact Nat.le_of_eq (Table.get_set_of_ne _ hu _)
      · exact Nat.le_of_eq (Table.get_set_of_ne _ hu _)
  · have hsame : ∀ f (q : Part), (q.countDown f).sending.get u = q.sending.get u :=
      fun f q => congrArg (·.get u) (q.sending_countDown f)
    exact Nat.le_of_eq (foldl_view (·.sending.get u) fun f _ q => hsame f q)

/-- Something that no read brings up is no more later on. -/
theorem elapse_le (count : Part → Nat) (hle : ∀ p r, count (p.tick r) ≤ count p) (p : Part)
    (reads : List Register) : count (p.elapse reads) ≤ count p := by
  induction reads generalizing p with
  | nil => exact Nat.le_refl _
  | cons r reads ih => exact Nat.le_trans (ih (p.tick r)) (hle p r)

/-- If the reads of one register bring it down, it is zero sooner or later. -/
theorem exists_elapse_zero {count : Part → Nat} (hself : ∀ p, count (p.tick r) = count p - 1)
    (p : Part) : ∃ reads, count (p.elapse reads) = 0 := by
  induction h : count p generalizing p with
  | zero => exact ⟨[], h⟩
  | succ n ih =>
      obtain ⟨reads, hreads⟩ := ih (p.tick r) (by rw [hself, h]; rfl)
      exact ⟨r :: reads, hreads⟩

/-- And several of them are zero together, one after the other. -/
theorem exists_elapse_all {ι : Type} (count : ι → Part → Nat) {register : ι → Register}
    (hself : ∀ i p, count i (p.tick (register i)) = count i p - 1)
    (hle : ∀ i p r, count i (p.tick r) ≤ count i p) (is : List ι) (p : Part) :
    ∃ reads, ∀ i ∈ is, count i (p.elapse reads) = 0 := by
  induction is with
  | nil => exact ⟨[], nofun⟩
  | cons i is ih =>
      obtain ⟨reads, hreads⟩ := ih
      obtain ⟨more, hmore⟩ := exists_elapse_zero (hself i) (p.elapse reads)
      refine ⟨reads ++ more, ?_⟩
      rw [elapse_append]
      refine List.forall_mem_cons.mpr ⟨hmore, fun j hj => Nat.le_zero.mp ?_⟩
      exact hreads j hj ▸ elapse_le (count j) (hle j) (p.elapse reads) more

/-- Every part comes to rest. -/
theorem exists_comesToRest (p : Part) : ∃ q, p.ComesToRest q := by
  obtain ⟨reads, hflags⟩ := exists_elapse_all (fun f q => q.pending.get f)
    (fun f q => q.pending_tick_self f) (fun f q r => q.pending_tick_le r f)
    (Enumerated.all StatusFlag) p
  obtain ⟨more, husarts⟩ := exists_elapse_all (fun u q => q.sending.get u)
    (fun u q => q.sending_tick_self u) (fun u q r => q.sending_tick_le r u)
    (Enumerated.all Usart) (p.elapse reads)
  refine ⟨_, reads ++ more, elapse_append p reads more, fun f => Nat.le_zero.mp ?_,
    fun u => husarts u (Enumerated.mem_all u)⟩
  exact hflags f (Enumerated.mem_all f) ▸
    elapse_le (fun q => q.pending.get f) (fun q r => q.pending_tick_le r f) _ more

/-! ## What they come to is fixed -/

theorem flagAtRest_countDown (p : Part) (f g : StatusFlag) :
    (p.countDown g).flagAtRest f = p.flagAtRest f := by
  by_cases hg : g = f
  · subst hg
    unfold countDown flagAtRest
    split
    · rfl
    · next hone => simp [peek, hone, StatusFlag.shown_settle]
    · next n hn => simp [peek, hn]
  · have hcases := p.countDown_cases (f := g) rfl
    simp only [flagAtRest, p.pending_countDown hg, shown_of_other hg hcases,
      wanted_of_other hcases]

/-- Reads do not change what a flag comes to. -/
theorem flagAtRest_tick (p : Part) (r : Register) (f : StatusFlag) :
    (p.tick r).flagAtRest f = p.flagAtRest f := by
  by_cases hr : f.register = r
  · subst hr
    rw [tick_register]
    exact foldl_view (flagAtRest f) fun g _ q => q.flagAtRest_countDown f g
  · rw [flagAtRest, p.pending_tick_of_ne hr, p.peek_tick_of_ne hr]
    rfl

/-- Nor do writes of other registers. -/
theorem flagAtRest_write_of_ne (t : Temper) (p : Part) (h : f.register ≠ r) (v : Word) :
    (p.write t r v).flagAtRest f = p.flagAtRest f := by
  rw [flagAtRest, p.pending_write_of_ne t v h, p.peek_write_of_ne t v h f.register_notUsart]
  rfl

/-- A flag that follows comes to what is asked of it. -/
theorem Follows.atRest (hp : p.Follows f bound) :
    p.flagAtRest f = f.wanted (p.peek f.register) := by
  unfold flagAtRest
  split
  · next hquiet => exact hp.settled hquiet
  · rfl

/-- Flags have nothing to do with the USARTs. -/
theorem usartAtRest_of_cases (hsending : q.sending = p.sending)
    (hcases : (∀ s, q.peek s = p.peek s) ∨
      (∀ s, s ≠ f.register → q.peek s = p.peek s) ∧
        q.peek f.register = f.settle (p.peek f.register)) :
    q.usartAtRest u = p.usartAtRest u := by
  have hpeek : q.peek (.usart u .sr) = p.peek (.usart u .sr) := by
    rcases hcases with hsame | ⟨hother, -⟩
    · exact hsame _
    · exact hother _ fun h => f.register_notUsart ⟨u, h.symm⟩
  rw [usartAtRest, hsending, hpeek]
  rfl

/-- Reads do not change what a USART comes to. -/
theorem usartAtRest_tick (p : Part) (r : Register) (u : Usart) :
    (p.tick r).usartAtRest u = p.usartAtRest u := by
  unfold tick
  split
  · next u' =>
    by_cases hu : u' = u
    · subst hu
      unfold countDownSending usartAtRest
      split
      · rfl
      · next hone => simp [peek, hone]
      · next n hn => simp [peek, hn]
    · have hregister : Register.usart u' .sr ≠ .usart u .sr := fun h => hu (by cases h; rfl)
      unfold countDownSending usartAtRest
      split
      · rfl
      · rw [Table.get_set_of_ne _ hu]
        simp only [peek, Table.get_set_of_ne _ hregister]
      · rw [Table.get_set_of_ne _ hu]
        rfl
  · exact foldl_view (usartAtRest u) fun f _ q =>
      usartAtRest_of_cases (q.sending_countDown f) (q.countDown_cases rfl)

theorem sending_react (t : Temper) (p : Part) (f : StatusFlag) :
    (p.react t f).sending = p.sending := by
  obtain ⟨_, _, hreact⟩ := p.react_eq t f
  rw [hreact]

/-- Nor do writes of what is no register of a USART. -/
theorem usartAtRest_write (t : Temper) (p : Part) (hr : ∀ u s, r ≠ .usart u s) (v : Word)
    (u : Usart) : (p.write t r v).usartAtRest u = p.usartAtRest u := by
  unfold write
  split
  · rfl
  · have hpoke : (p.poke r (stored t r (p.peek r) v)).usartAtRest u = p.usartAtRest u := by
      unfold usartAtRest
      rw [p.peek_poke_of_ne (hr u .sr).symm]
      rfl
    dsimp only
    split
    · next u' _ => exact absurd rfl (hr u' .dr)
    · refine Eq.trans ?_ hpoke
      exact foldl_view (usartAtRest u) fun f _ q =>
        usartAtRest_of_cases (q.sending_react t f) (q.react_cases t rfl)

/-! ## Drivers that do not come near -/

/-- What a flag comes to is a matter of its register. -/
theorem flagAtRest_keeps (t : Temper) {rs : List Register} (hf : f.register ∉ rs) (w : Word) :
    (simulated t).Keeps (Access.among rs) (fun p => p.flagAtRest f = w) where
  read s p _ hp := (p.flagAtRest_tick s f).trans hp
  write s v p hok hp := by
    have hne : f.register ≠ s := fun h => hf (h ▸ of_decide_eq_true hok)
    exact (p.flagAtRest_write_of_ne t hne v).trans hp
  storeVector _ _ _ _ hp := hp

theorem usartAtRest_keeps (t : Temper) {rs : List Register} (hrs : ∀ r ∈ rs, ∀ u s, r ≠ .usart u s)
    (u : Usart) (w : Word) :
    (simulated t).Keeps (Access.among rs) (fun p => p.usartAtRest u = w) where
  read s p _ hp := (p.usartAtRest_tick s u).trans hp
  write s v p hok hp := (p.usartAtRest_write t (hrs s (of_decide_eq_true hok)) v u).trans hp
  storeVector _ _ _ _ hp := hp

end Part

/-! ## The same at rest -/

/-- The two parts come to the same registers. -/
structure SameAtRest (p q : Part) : Prop where
  steady : ∀ r, ¬r.IsUsartStatus →
    Word.AgreeOn (~~~StatusFlag.statusOf r) (q.peek r) (p.peek r)
  flag : ∀ f, q.flagAtRest f = p.flagAtRest f
  usart : ∀ u, q.usartAtRest u = p.usartAtRest u

/-- Words that show the same flags of a register agree on all its status
bits. -/
theorem StatusFlag.agreeOn_statusOf {r : Register} {a b : Word}
    (h : ∀ f ∈ ofRegister r, f.shown a = f.shown b) : Word.AgreeOn (statusOf r) a b := by
  have hall : ∀ (flags : List StatusFlag) (bits : Word), Word.AgreeOn bits a b →
      (∀ f ∈ flags, f.shown a = f.shown b) →
      Word.AgreeOn (flags.foldl (fun bits f => bits ||| f.status) bits) a b := by
    intro flags
    induction flags with
    | nil => exact fun _ hbits _ => hbits
    | cons f flags ih =>
        intro bits hbits hflags
        obtain ⟨hf, hflags⟩ := List.forall_mem_cons.mp hflags
        exact ih _ (hbits.union hf) hflags
  exact hall _ 0 (BitVec.and_zero.trans BitVec.and_zero.symm) h

namespace SameAtRest

variable {p q q' p' : Part}

theorem refl (p : Part) : SameAtRest p p :=
  ⟨fun _ _ => .refl _ _, fun _ => rfl, fun _ => rfl⟩

theorem trans (h : SameAtRest p q) (h' : SameAtRest q q') : SameAtRest p q' where
  steady r hr := (h'.steady r hr).trans (h.steady r hr)
  flag f := (h'.flag f).trans (h.flag f)
  usart u := (h'.usart u).trans (h.usart u)

theorem tick (p : Part) (r : Register) : SameAtRest p (p.tick r) where
  steady s hs := by
    by_cases h : s = r
    · subst h
      exact (p.passed_tick hs).steady
    · rw [p.peek_tick_of_ne h]
      exact .refl _ _
  flag f := p.flagAtRest_tick r f
  usart u := p.usartAtRest_tick r u

/-- Time does not change what a part comes to. -/
theorem elapse (p : Part) (reads : List Register) : SameAtRest p (p.elapse reads) := by
  induction reads generalizing p with
  | nil => exact .refl p
  | cons r reads ih => exact (tick p r).trans (ih (p.tick r))

/-- At rest, there is no difference. -/
theorem peek_of_resting (h : SameAtRest p q) (hp : p.Resting) (hq : q.Resting) (r : Register) :
    q.peek r = p.peek r := by
  by_cases hr : r.IsUsartStatus
  · obtain ⟨u, rfl⟩ := hr
    have husart := h.usart u
    rwa [Part.usartAtRest, Part.usartAtRest, if_pos (hq.sending u), if_pos (hp.sending u)] at husart
  · have hstatus : Word.AgreeOn (StatusFlag.statusOf r) (q.peek r) (p.peek r) := by
      refine StatusFlag.agreeOn_statusOf fun f hf => ?_
      obtain rfl := (StatusFlag.mem_ofRegister f r).mp hf
      have hflag := h.flag f
      rwa [Part.flagAtRest, Part.flagAtRest, if_pos (hq.pending f), if_pos (hp.pending f)] at hflag
    have hboth := (h.steady r hr).union hstatus
    have hall : ~~~StatusFlag.statusOf r ||| StatusFlag.statusOf r = BitVec.allOnes 32 := by
      ext i hi
      simp
    rw [hall, Word.AgreeOn, BitVec.and_allOnes, BitVec.and_allOnes] at hboth
    exact hboth

/-- Parts that are the same at rest come to the same registers. -/
theorem peek_eq (h : SameAtRest p q) (hp : p.ComesToRest p') (hq : q.ComesToRest q')
    (r : Register) : q'.peek r = p'.peek r := by
  obtain ⟨reads, rfl, hresting⟩ := hp
  obtain ⟨reads', rfl, hresting'⟩ := hq
  have hsame : SameAtRest (p.elapse reads) (q.elapse reads') := by
    refine ⟨fun s hs => ?_, fun f => ?_, fun u => ?_⟩
    · exact (((elapse q reads').steady s hs).trans (h.steady s hs)).trans
        ((elapse p reads).steady s hs).symm
    · exact (((elapse q reads').flag f).trans (h.flag f)).trans ((elapse p reads).flag f).symm
    · exact (((elapse q reads').usart u).trans (h.usart u)).trans ((elapse p reads).usart u).symm
  exact hsame.peek_of_resting hresting hresting' r

end SameAtRest

end BringUp
