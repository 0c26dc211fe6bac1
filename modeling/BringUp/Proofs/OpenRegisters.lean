import BringUp.Proofs.Confinement
import BringUp.Proofs.OperatingPoint

/-!
Registers without a lock or a gate, and what becomes of the words in them.

* `Register.Open`: every write reaches the register as it is.
* `Ensures.modifyOpen`, `Ensures.writeFieldOpen`: rules for a
  read-modify-write that also say what the register holds afterwards.
* `Confined.running_cases`, `Confined.sws_of_settled`: what a footprint says
  about the source of the system clock, which is a status and may lag behind.

A read-modify-write touches nothing but its bits, and a status flag of the
register may settle between the read and the write, or after it.
-/

namespace BringUp

open Clock

/-- A register that takes every write as it is. -/
structure Register.Open (r : Register) : Prop where
  takes : ∀ (t : Temper) (p : Part), p.ignores t r = false
  ne_bdcr : r ≠ .bdcr
  notUsart : ¬r.IsUsartStatus

namespace Register

theorem cr_open : Open .cr :=
  ⟨fun _ _ => rfl, by decide, by rintro ⟨u, h⟩; cases h⟩

theorem csr_open : Open .csr :=
  ⟨fun _ _ => rfl, by decide, by rintro ⟨u, h⟩; cases h⟩

theorem cfgr_open : Open .cfgr :=
  ⟨fun _ _ => rfl, by decide, by rintro ⟨u, h⟩; cases h⟩

theorem acr_open : Open .acr :=
  ⟨fun _ _ => rfl, by decide, by rintro ⟨u, h⟩; cases h⟩

end Register

/-- But for its status bits, an open register holds what was written. -/
theorem Part.steady_write {t : Temper} (ht : t.Unlatched) {r : Register} (hr : r.Open)
    (v : Word) (p : Part) :
    Word.AgreeOn (~~~StatusFlag.statusOf r) ((p.write t r v).peek r) v := by
  have hwrote := Part.wrote_write ht (v := v) (hr.takes t p)
  have hvalue : resetBackup t r v = v := by
    unfold resetBackup
    rw [if_neg]
    intro h
    exact hr.ne_bdcr h.1
  rw [hvalue] at hwrote
  exact hwrote.steady

namespace Ensures

variable {t : Temper} {patience : Nat} {G : Event Part → Prop} {p : Part}

/-- A read of a field tells what it held before. Only time has passed since. -/
theorem readDecoded {α : Type} {r : Register} {f : Field} {decode : Word → α}
    {Q : α → Part → Prop} (hG : ∀ q, Confined .none p q → G ⟨p, .read r, q⟩)
    (hQ : ∀ q, Confined .none p q → Q (decode (f.get (p.peek r))) q) :
    Ensures (simulated t) patience G
      (do
        let code ← Driver.readField r f
        return decode code) p Q := by
  have htick := Confined.tick .none p r
  refine .bind (R := fun code q => Q (decode code) q) ?_ fun code q h => .pure h
  exact .readField (hG _ htick) (hQ _ htick)

/-- A read-modify-write of an open register: it changes the given bits only,
and but for its status bits the register then holds what was made of the word
that was read. -/
theorem modifyOpen (ht : t.Unlatched) {r : Register} (hr : r.Open) {bits : Word}
    {f : Word → Word} {Q : Unit → Part → Prop}
    (hf : ∀ w, Word.AgreeOn (~~~bits) (f w) w)
    (hread : ∀ q, Confined .none p q → G ⟨p, .read r, q⟩)
    (hwrite : ∀ q q', Confined .none p q → Confined (.only r bits) p q' →
      Word.AgreeOn (~~~StatusFlag.statusOf r) (q'.peek r) (f (p.peek r)) →
      G ⟨q, .write r (f (p.peek r)), q'⟩ ∧ Q () q') :
    Ensures (simulated t) patience G (Driver.modify r f) p Q := by
  have htick := Confined.tick .none p r
  have hnew : Confined (.only r bits) p ((p.tick r).write t r (f (p.peek r))) := by
    refine (Confined.tick _ p r).write ht ?_
    rw [Footprint.only_self]
    exact hf (p.peek r)
  have hstep := hwrite _ _ htick hnew (Part.steady_write ht hr _ _)
  exact .modify (hread _ htick) hstep.1 hstep.2

/-- The same for a field: it then reads back the value. -/
theorem writeFieldOpen (ht : t.Unlatched) {r : Register} (hr : r.Open) {f : Field}
    {v : Word} (hv : f.Fits v) (hstatus : f.mask &&& ~~~StatusFlag.statusOf r = f.mask)
    {Q : Unit → Part → Prop} (hread : ∀ q, Confined .none p q → G ⟨p, .read r, q⟩)
    (hwrite : ∀ q q' w, Confined .none p q → Confined (.only r f.mask) p q' →
      f.get (q'.peek r) = v → G ⟨q, .write r w, q'⟩ ∧ Q () q') :
    Ensures (simulated t) patience G (Driver.writeField r f v) p Q := by
  refine modifyOpen ht hr (fun w => Field.put_outside f v w) hread ?_
  intro q q' hq hq' hagree
  exact hwrite q q' _ hq hq' (hagree.get_put hstatus hv)

end Ensures

/-! ## What a footprint says about an open register -/

namespace StatusFlag

theorem sws_get (w : Word) : Cfgr.sws.get w = sysclk.shown w >>> 2 :=
  rfl

theorem sw_get (w : Word) : Cfgr.sw.get w = sysclk.wanted w >>> 2 := by
  have hsmall : (w &&& 3).toNat ≤ 3 := by
    rw [BitVec.toNat_and]
    exact Nat.and_le_right
  have hup : ((w &&& 3) <<< 2) >>> 2 = w &&& 3 := by
    apply BitVec.eq_of_toNat_eq
    rw [BitVec.toNat_ushiftRight, BitVec.toNat_shiftLeft, Nat.shiftLeft_eq,
      Nat.shiftRight_eq_div_pow]
    omega
  change (w &&& 3) >>> 0 = ((w &&& 3) <<< 2) >>> 2
  rw [hup]
  rfl

end StatusFlag

namespace Confined

variable {m : Footprint} {p q : Part}

/-- Bits that are neither in the footprint nor a status keep their value. -/
theorem agreeOn (h : Confined m p q) {r : Register} (hr : m.Covers p r) {mask : Word}
    (hm : (m r ||| StatusFlag.statusOf r) &&& mask = 0) :
    Word.AgreeOn mask (q.peek r) (p.peek r) := by
  refine (h.steady r hr).mono ?_
  ext i hi
  have hbit := Word.and_getElem_of_disjoint hm i hi
  simp only [BitVec.getElem_and, BitVec.getElem_or, BitVec.getElem_not] at hbit ⊢
  cases hmask : mask[i] <;> simp_all

theorem agreeOn_open (h : Confined m p q) {r : Register} (hr : r.Open) {mask : Word}
    (hm : (m r ||| StatusFlag.statusOf r) &&& mask = 0) :
    Word.AgreeOn mask (q.peek r) (p.peek r) :=
  h.agreeOn (Footprint.covers_of_ne hr.notUsart hr.ne_bdcr) hm

/-- What does nothing to a part does not touch the control bits of a flag. -/
theorem control_eq {f : StatusFlag} (h : Confined .none p q)
    (hr : f.register.Open) : q.peek f.register &&& f.control = p.peek f.register &&& f.control := by
  refine h.agreeOn_open hr (Word.or_and_eq_zero BitVec.zero_and ?_)
  cases f <;> decide

/-- Fields of the configuration outside the footprint keep their value. -/
theorem get_cfgr (h : Confined m p q) {f : Field}
    (hm : (m .cfgr ||| StatusFlag.statusOf .cfgr) &&& f.mask = 0) :
    f.get (q.peek .cfgr) = f.get (p.peek .cfgr) :=
  (h.agreeOn_open Register.cfgr_open hm).get (BitVec.and_self)

/-- The request for a source stays. -/
theorem sw_eq (h : Confined m p q)
    (hm : m .cfgr &&& (Cfgr.sw.mask ||| Cfgr.sws.mask) = 0) :
    Cfgr.sw.get (q.peek .cfgr) = Cfgr.sw.get (p.peek .cfgr) := by
  obtain ⟨hsw, _⟩ := (Word.and_or_eq_zero_iff _ _ _).mp hm
  exact h.get_cfgr (Word.or_and_eq_zero hsw (by decide))

theorem requested_eq (h : Confined m p q)
    (hm : m .cfgr &&& (Cfgr.sw.mask ||| Cfgr.sws.mask) = 0) :
    Cfgr.requested (q.peek .cfgr) = Cfgr.requested (p.peek .cfgr) :=
  congrArg SysclkSource.ofCode (h.sw_eq hm)

/-- The source of the system clock stays, or becomes the requested one. -/
theorem sws_cases (h : Confined m p q)
    (hm : m .cfgr &&& (Cfgr.sw.mask ||| Cfgr.sws.mask) = 0) :
    Cfgr.sws.get (q.peek .cfgr) = Cfgr.sws.get (p.peek .cfgr) ∨
      Cfgr.sws.get (q.peek .cfgr) = Cfgr.sw.get (p.peek .cfgr) := by
  have hcover : m.Covers p StatusFlag.sysclk.register :=
    Footprint.covers_of_ne Register.cfgr_open.notUsart Register.cfgr_open.ne_bdcr
  rw [StatusFlag.sws_get, StatusFlag.sws_get, StatusFlag.sw_get]
  rcases h.shown .sysclk hcover hm with hkept | hsettled
  · left
    exact congrArg (fun w : Word => w >>> 2) hkept
  · right
    exact congrArg (fun w : Word => w >>> 2) hsettled

theorem running_cases (h : Confined m p q)
    (hm : m .cfgr &&& (Cfgr.sw.mask ||| Cfgr.sws.mask) = 0) :
    Cfgr.running (q.peek .cfgr) = Cfgr.running (p.peek .cfgr) ∨
      Cfgr.running (q.peek .cfgr) = Cfgr.requested (p.peek .cfgr) :=
  (h.sws_cases hm).imp (congrArg SysclkSource.ofCode) (congrArg SysclkSource.ofCode)

/-- A source that has been reached is kept. -/
theorem sws_of_settled (h : Confined m p q)
    (hm : m .cfgr &&& (Cfgr.sw.mask ||| Cfgr.sws.mask) = 0)
    (hs : Cfgr.sw.get (p.peek .cfgr) = Cfgr.sws.get (p.peek .cfgr)) :
    Cfgr.sws.get (q.peek .cfgr) = Cfgr.sws.get (p.peek .cfgr) := by
  rcases h.sws_cases hm with hkept | hsettled
  · exact hkept
  · exact hsettled.trans hs

/-- The wait states outside the footprint stay in force. -/
theorem waitStates_eq (h : Confined m p q)
    (hm : (m .acr ||| StatusFlag.statusOf .acr) &&& Hardware.Flash.latency.mask = 0) :
    q.waitStates = p.waitStates := by
  have hget := (h.agreeOn_open Register.acr_open hm).get (BitVec.and_self)
  exact congrArg Hardware.Flash.decodeWaitStates hget

end Confined

/-- A driver that is confined to a footprint keeps every property that is
indifferent to the footprint. -/
theorem Confines.keeps {α : Type} {t : Temper} {patience : Nat} {m : Footprint}
    {x : Driver α} (hx : Confines t patience m x) {I : Part → Prop}
    (hI : ∀ p q, Confined m p q → I p → I q) {p : Part} (hp : I p) :
    Ensures (simulated t) patience (fun e => I e.after) x p (fun _ q => I q) :=
  (hx p).mono (fun _ he => hI _ _ he.2 hp) (fun _ _ hq => hI _ _ hq hp)

end BringUp
