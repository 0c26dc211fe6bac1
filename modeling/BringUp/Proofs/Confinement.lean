import BringUp.Proofs.Ensures
import BringUp.Proofs.PartAccess

/-!
Confinement: which bits a driver may change, whatever it reads and however it
ends.

* `Footprint`: a mask for each register.
* `Confined m p q`: between the states `p` and `q` the program changed bits
  inside the footprint `m` only. Outside of it the registers are the same, but
  for status flags that have followed their own control bits.
* `Confines t patience m x`: everything that the driver `x` does is confined
  to `m`.

Main statements: confinement is transitive (`Confined.trans`), every access
within the footprint is confined (`Confined.tick`, `Confined.write`), and so
is every driver built from such accesses (`Confines.bind`, `Confines.modify`,
…).

Two registers need care. A USART's status changes on its own, and a write that
resets the backup domain clears all of it. `Covers m p r` keeps them apart:
nothing is said about the former, and about the backup domain only while its
reset bit is neither set nor in the footprint.
-/

namespace BringUp

/-- For each register, the bits that a driver may change. -/
abbrev Footprint := Register → Word

namespace Footprint

/-- Every bit of `m` is one of `m'`. -/
def Within (m m' : Footprint) : Prop :=
  ∀ r, m r &&& m' r = m r

/-- What a footprint says about register `r` can be relied on. -/
def Covers (m : Footprint) (p : Part) (r : Register) : Prop :=
  ¬r.IsUsartStatus ∧ (r = .bdcr → (m .bdcr ||| p.peek .bdcr).getLsbD 16 = false)

theorem Covers.mono {m m' : Footprint} (h : m.Within m') {p : Part} {r : Register}
    (hc : m'.Covers p r) : m.Covers p r := by
  refine ⟨hc.1, fun hr => ?_⟩
  have hbit := hc.2 hr
  have hm : (m .bdcr &&& m' .bdcr).getLsbD 16 = (m .bdcr).getLsbD 16 := by rw [h .bdcr]
  simp only [BitVec.getLsbD_or, BitVec.getLsbD_and, Bool.or_eq_false_iff] at hbit hm ⊢
  rw [hbit.1, Bool.and_false] at hm
  exact ⟨hm.symm, hbit.2⟩

theorem covers_of_ne {m : Footprint} {p : Part} {r : Register} (hr : ¬r.IsUsartStatus)
    (h : r ≠ .bdcr) : m.Covers p r :=
  ⟨hr, fun heq => absurd heq h⟩

/-- No bits at all. -/
def none : Footprint :=
  fun _ => 0

/-- Bits of one register only. -/
def only (r : Register) (bits : Word) : Footprint :=
  fun s => if s = r then bits else 0

@[simp]
theorem none_apply (r : Register) : none r = 0 :=
  rfl

@[simp]
theorem only_self (r : Register) (bits : Word) : only r bits r = bits := by
  simp [only]

theorem only_of_ne {r s : Register} (h : s ≠ r) (bits : Word) : only r bits s = 0 := by
  simp [only, h]

theorem none_within (m : Footprint) : none.Within m := by
  intro r
  simp

theorem only_within {m : Footprint} {r : Register} {bits : Word} (h : bits &&& m r = bits) :
    (only r bits).Within m := by
  intro s
  by_cases hs : s = r
  · subst hs
    rw [only_self, h]
  · rw [only_of_ne hs]
    simp

end Footprint

/-- Between `p` and `q` the program changed bits inside the footprint only;
flags whose control bits it left alone have followed them, or have not yet. -/
structure Confined (m : Footprint) (p q : Part) : Prop where
  steady : ∀ r, m.Covers p r →
    Word.AgreeOn (~~~(m r ||| StatusFlag.statusOf r)) (q.peek r) (p.peek r)
  shown : ∀ f : StatusFlag, m.Covers p f.register →
    m f.register &&& (f.control ||| f.status) = 0 →
    f.shown (q.peek f.register) = f.shown (p.peek f.register) ∨
      f.shown (q.peek f.register) = f.wanted (p.peek f.register)

/-- Masks outside a union are outside its parts. -/
private theorem compl_or_subset (a b : Word) : ~~~(a ||| b) &&& ~~~b = ~~~(a ||| b) := by
  ext i hi
  simp only [BitVec.getElem_and, BitVec.getElem_or, BitVec.getElem_not]
  cases a[i] <;> simp

private theorem compl_or_subset_left (a b : Word) :
    ~~~(a ||| b) &&& ~~~a = ~~~(a ||| b) := by
  ext i hi
  simp only [BitVec.getElem_and, BitVec.getElem_or, BitVec.getElem_not]
  cases a[i] <;> simp

/-- What is disjoint from a flag's bits is disjoint from its control bits. -/
private theorem control_outside {f : StatusFlag} {mask : Word}
    (h : mask &&& (f.control ||| f.status) = 0) :
    f.control &&& ~~~(mask ||| StatusFlag.statusOf f.register) = f.control := by
  ext i hi
  have hbit := Word.and_getElem_of_disjoint h i hi
  have hstatus : (f.control &&& ~~~StatusFlag.statusOf f.register)[i] = f.control[i] := by
    rw [f.control_disjoint]
  simp only [BitVec.getElem_and, BitVec.getElem_or, BitVec.getElem_not] at hbit hstatus ⊢
  cases hc : f.control[i] <;> simp_all

private theorem status_outside {f : StatusFlag} {mask : Word}
    (h : mask &&& (f.control ||| f.status) = 0) : f.status &&& ~~~mask = f.status := by
  ext i hi
  have hbit := Word.and_getElem_of_disjoint h i hi
  simp only [BitVec.getElem_and, BitVec.getElem_or, BitVec.getElem_not] at hbit ⊢
  cases hs : f.status[i] <;> simp_all

namespace Confined

variable {m m' : Footprint} {p q q' : Part}

/-- What changes no register is confined to any footprint. -/
theorem of_peek_eq (h : ∀ r, q.peek r = p.peek r) : Confined m p q := by
  refine ⟨fun r _ => ?_, fun f _ _ => ?_⟩
  · rw [h r]
    exact .refl _ _
  · rw [h f.register]
    exact .inl rfl

theorem refl (m : Footprint) (p : Part) : Confined m p p :=
  of_peek_eq fun _ => rfl

/-- A footprint that can be relied on before can be relied on after. -/
theorem covers (h : Confined m p q) {r : Register} (hr : m.Covers p r) : m.Covers q r := by
  refine ⟨hr.1, fun heq => ?_⟩
  subst heq
  have hbit := hr.2 rfl
  have houtside : (~~~(m .bdcr ||| StatusFlag.statusOf .bdcr)).getLsbD 16 = true := by
    have hmask := (Bool.or_eq_false_iff.mp (BitVec.getLsbD_or ▸ hbit)).1
    have hstatus := StatusFlag.reset_not_status .bdcr
    simp only [BitVec.getLsbD_not, BitVec.getLsbD_or] at hstatus ⊢
    simp_all
  have hkept := (h.steady .bdcr hr).getLsbD houtside
  simp only [BitVec.getLsbD_or] at hbit ⊢
  rwa [hkept]

/-- The control bits of a flag outside the footprint stay, and with them the
status that they ask for. -/
theorem wanted (h : Confined m p q) {f : StatusFlag} (hr : m.Covers p f.register)
    (hf : m f.register &&& (f.control ||| f.status) = 0) :
    f.wanted (q.peek f.register) = f.wanted (p.peek f.register) :=
  (h.steady _ hr).wanted (control_outside hf)

theorem trans (h : Confined m p q) (h' : Confined m q q') : Confined m p q' := by
  refine ⟨fun r hr => (h'.steady r (h.covers hr)).trans (h.steady r hr), fun f hr hf => ?_⟩
  rcases h'.shown f (h.covers hr) hf with hkept | hsettled
  · rw [hkept]
    exact h.shown f hr hf
  · right
    rw [hsettled, h.wanted hr hf]

/-- A larger footprint allows more. -/
theorem mono (h : Confined m p q) (hm : m.Within m') : Confined m' p q := by
  refine ⟨fun r hr => (h.steady r (hr.mono hm)).mono ?_, fun f hr hf => ?_⟩
  · ext i hi
    have hsub := Word.getElem_of_subset (hm r) i hi
    simp only [BitVec.getElem_and, BitVec.getElem_or, BitVec.getElem_not]
    cases h1 : (m r)[i] <;> cases h2 : (m' r)[i] <;> simp_all
  · refine h.shown f (hr.mono hm) ?_
    rw [← hm f.register, BitVec.and_assoc, hf]
    simp

/-- What changed nothing is confined to anything. -/
theorem of_none (h : Confined .none p q) : Confined m p q :=
  h.mono (Footprint.none_within m)

/-- A read is confined to any footprint. -/
theorem tick (m : Footprint) (p : Part) (r : Register) : Confined m p (p.tick r) := by
  refine ⟨fun s hs => ?_, fun f hs _ => ?_⟩
  · by_cases h : s = r
    · subst h
      exact (p.passed_tick hs.1).steady.mono (compl_or_subset _ _)
    · rw [p.peek_tick_of_ne h]
      exact .refl _ _
  · by_cases h : f.register = r
    · subst h
      exact (p.passed_tick hs.1).shown f rfl
    · rw [p.peek_tick_of_ne h]
      exact .inl rfl

/-- A write is confined if outside the footprint it writes back what was read
before, even if status flags have moved since. -/
theorem write {t : Temper} (ht : t.Unlatched) (h : Confined m p q) {r : Register}
    {v : Word} (hv : Word.AgreeOn (~~~m r) v (p.peek r)) :
    Confined m p (q.write t r v) := by
  by_cases hi : q.ignores t r = true
  · rw [Part.write_of_ignores hi]
    exact h
  · have hw := Part.wrote_write ht (v := v) (Bool.eq_false_iff.mpr hi)
    have hvalue : m.Covers p r → Part.resetBackup t r v = v := by
      intro hc
      simp only [Part.resetBackup]
      split
      · next hreset =>
        obtain ⟨rfl, _, hbit⟩ := hreset
        have hboth := hc.2 rfl
        simp only [BitVec.getLsbD_or, Bool.or_eq_false_iff] at hboth
        have houtside : (~~~m .bdcr).getLsbD 16 = true := by
          rw [BitVec.getLsbD_not, hboth.1]
          rfl
        have hsame := hv.getLsbD houtside
        simp_all
      · rfl
    refine ⟨fun s hs => ?_, fun f hs hf => ?_⟩
    · by_cases hsr : s = r
      · subst hsr
        rw [hvalue hs] at hw
        exact (hw.steady.mono (compl_or_subset _ _)).trans
          (hv.mono (compl_or_subset_left _ _))
      · rw [hw.other s hsr hs.1]
        exact h.steady s hs
    · by_cases hfr : f.register = r
      · subst hfr
        rw [hvalue hs] at hw
        have hshown : f.shown v = f.shown (p.peek f.register) := hv.shown (status_outside hf)
        have hwanted : f.wanted v = f.wanted (p.peek f.register) :=
          (hv.mono (compl_or_subset_left _ _)).wanted (control_outside hf)
        rcases hw.shown f rfl with hold | hwritten | hsettled
        · rw [hold]
          exact h.shown f hs hf
        · exact .inl (hwritten.trans hshown)
        · exact .inr (hsettled.trans hwanted)
      · rw [hw.other _ hfr hs.1]
        exact h.shown f hs hf

end Confined

/-! ## Drivers -/

/-- Everything that the driver does, from before its first event to after its
last one and to its result, is confined to the footprint. -/
def Confines {α : Type} (t : Temper) (patience : Nat) (m : Footprint) (x : Driver α) : Prop :=
  ∀ p, Ensures (simulated t) patience
    (fun e => Confined m p e.before ∧ Confined m p e.after) x p
    (fun _ q => Confined m p q)

namespace Confines

variable {α β : Type} {t : Temper} {patience : Nat} {m m' : Footprint}

theorem mono {x : Driver α} (hx : Confines t patience m x) (hm : m.Within m') :
    Confines t patience m' x :=
  fun p => (hx p).mono (fun _ h => ⟨h.1.mono hm, h.2.mono hm⟩) (fun _ _ h => h.mono hm)

/-- A confined driver goes on within whatever was confined before. -/
theorem after {x : Driver α} (hx : Confines t patience m x) {p q : Part}
    (h : Confined m p q) :
    Ensures (simulated t) patience
      (fun e => Confined m p e.before ∧ Confined m p e.after) x q
      (fun _ q' => Confined m p q') :=
  (hx q).mono (fun _ he => ⟨h.trans he.1, h.trans he.2⟩) (fun _ _ hq => h.trans hq)

theorem done (a : α) : Confines t patience m (Proc.done a) :=
  fun p => .done (.refl m p)

theorem log (level : Log.Level) (target message : String) :
    Confines t patience m (Driver.log level target message) :=
  fun p => .log (.refl m p)

theorem bind {x : Driver α} {f : α → Driver β} (hx : Confines t patience m x)
    (hf : ∀ a, Confines t patience m (f a)) : Confines t patience m (x >>= f) :=
  fun p => .bind (hx p) fun a _ h => (hf a).after h

theorem read (r : Register) : Confines t patience m (Driver.read r) :=
  fun p => .read ⟨.refl m p, .tick m p r⟩ (.tick m p r)

theorem loadVector (table : Word) (slot : Nat) :
    Confines t patience m (Proc.request (I := bus) (.loadVector table slot)) :=
  fun p => .loadVector ⟨.refl m p, .refl m p⟩ (.refl m p)

/-- The vectors are no registers. -/
theorem storeVector (slot : Nat) (entry : VectorEntry) :
    Confines t patience m (Proc.request (I := bus) (.storeVector slot entry)) :=
  fun p => .storeVector ⟨.refl m p, .of_peek_eq fun _ => rfl⟩ (.of_peek_eq fun _ => rfl)

theorem write (ht : t.Unlatched) {r : Register} (v : Word) (hm : ~~~m r = 0) :
    Confines t patience m (Driver.write r v) := by
  intro p
  have hv : Word.AgreeOn (~~~m r) v (p.peek r) := by
    rw [hm]
    simp [Word.AgreeOn]
  have hwrite := (Confined.refl m p).write ht hv
  exact .write ⟨.refl m p, hwrite⟩ hwrite

/-- A read-modify-write is confined if what it makes of the word is. -/
theorem modify (ht : t.Unlatched) {r : Register} {f : Word → Word}
    (hf : ∀ w, Word.AgreeOn (~~~m r) (f w) w) :
    Confines t patience m (Driver.modify r f) := by
  intro p
  have hread := Confined.tick m p r
  have hwrite := hread.write ht (hf (p.peek r))
  exact .modify ⟨.refl m p, hread⟩ ⟨hread, hwrite⟩ hwrite

theorem setBits (ht : t.Unlatched) {r : Register} {bits : Word} (h : bits &&& ~~~m r = 0) :
    Confines t patience m (Driver.setBits r bits) :=
  modify ht fun w => Word.agreeOn_or w h

theorem clearBits (ht : t.Unlatched) {r : Register} {bits : Word} (h : bits &&& ~~~m r = 0) :
    Confines t patience m (Driver.clearBits r bits) :=
  modify ht fun w => Word.agreeOn_andNot w h

theorem writeField (ht : t.Unlatched) {r : Register} {f : Field} (v : Word)
    (h : f.mask &&& ~~~m r = 0) : Confines t patience m (Driver.writeField r f v) :=
  modify ht fun w => Word.agreeOn_put f v w h

theorem isSet (r : Register) (mask : Word) : Confines t patience m (Driver.isSet r mask) :=
  bind (read r) fun _ => done _

theorem readField (r : Register) (f : Field) :
    Confines t patience m (Driver.readField r f) :=
  bind (read r) fun _ => done _

/-! ### Drivers that can fail -/

theorem lift {x : Driver α} (hx : Confines t patience m x) :
    Confines t patience m (liftM x : Setup α).run :=
  fun p => .lift (hx p)

theorem throw (e : SetupError) :
    Confines t patience m (MonadExcept.throw e : Setup α).run :=
  fun p => .throw (.refl m p)

theorem setupPure (a : α) : Confines t patience m (Pure.pure a : Setup α).run :=
  fun p => .setupPure (.refl m p)

theorem setupBind {x : Setup α} {f : α → Setup β} (hx : Confines t patience m x.run)
    (hf : ∀ a, Confines t patience m (f a).run) :
    Confines t patience m (x >>= f).run :=
  fun p => .setupBind (hx p) (fun a _ h => (hf a).after h) (fun _ _ h => h)

theorem optionally {c : Bool} {x : Setup Unit} (hx : Confines t patience m x.run) :
    Confines t patience m (BringUp.optionally c x).run :=
  fun p => .optionally (fun _ => hx p) (fun _ => .refl m p)

theorem waitUntil (r : Register) (accept : Word → Bool) (flag : ReadyFlag)
    (budget : Nat) : Confines t patience m (Setup.waitUntil r accept flag budget).run := by
  intro p
  refine .waitUntil (I := fun q => Confined m p q) (.refl m p) ?_ ?_ ?_
  · intro q h
    have hread := h.trans (Confined.tick m q r)
    exact ⟨⟨h, hread⟩, hread⟩
  · intro q h _
    exact h.trans (Confined.tick m q r)
  · intro q h
    exact h

end Confines

end BringUp
