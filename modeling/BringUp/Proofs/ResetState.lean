import BringUp.Proofs.Footprints
import BringUp.Proofs.OpenRegisters

/-!
The reset state of the clocks.

* `Cfgr.tree`: the bits of the configuration that decide the rates, but for
  the source that the system clock still runs from.

Main statement: after the reset all of them are zero, whatever the part held
before (`resetPart_ensures`). The source itself may lag behind, or never
follow; it is the internal oscillator if it was before, and no switch was
under way.
-/

namespace BringUp

open Clock

/-- Everything that decides the rates, but for the source in use. -/
def Clock.Cfgr.tree : Word :=
  sw.mask ||| hpre.mask ||| ppre1.mask ||| ppre2.mask ||| adcpre.mask ||| pll

/-- After a write of the configuration, the source is the old one, the written
one, or the requested one. -/
theorem Part.running_write {t : Temper} (ht : t.Unlatched) (v : Word) (p : Part) :
    Cfgr.running ((p.write t .cfgr v).peek .cfgr) = Cfgr.running (p.peek .cfgr) ∨
      Cfgr.running ((p.write t .cfgr v).peek .cfgr) = Cfgr.running v ∨
      Cfgr.running ((p.write t .cfgr v).peek .cfgr) = Cfgr.requested v := by
  have hvalue : resetBackup t .cfgr v = v := by
    unfold resetBackup
    rw [if_neg (fun h => by cases h.1)]
  have hwrote := Part.wrote_write (p := p) ht (v := v) (Register.cfgr_open.takes t p)
  rw [hvalue] at hwrote
  have hof : ∀ {a b : Word}, a = b →
      SysclkSource.ofCode (a >>> 2) = SysclkSource.ofCode (b >>> 2) := by
    rintro a _ rfl
    rfl
  unfold Cfgr.running Cfgr.requested
  rw [StatusFlag.sws_get, StatusFlag.sws_get, StatusFlag.sws_get, StatusFlag.sw_get]
  exact (hwrote.shown .sysclk rfl).imp hof (Or.imp hof hof)

/-- The system clock runs from the source, and no other is requested. -/
def OnSource (source : SysclkSource) (p : Part) : Prop :=
  Cfgr.running (p.peek .cfgr) = source ∧ Cfgr.requested (p.peek .cfgr) = source

theorem OnSource.of_confined {source : SysclkSource} {m : Footprint} {p q : Part}
    (h : Confined m p q) (hm : m .cfgr &&& (Cfgr.sw.mask ||| Cfgr.sws.mask) = 0)
    (hp : OnSource source p) : OnSource source q := by
  refine ⟨?_, ?_⟩
  · rcases h.running_cases hm with hkept | hsettled
    · exact hkept.trans hp.1
    · exact hsettled.trans hp.2
  · exact (h.requested_eq hm).trans hp.2

namespace Hardware

variable {t : Temper} (ht : t.Unlatched) {patience : Nat}

/-- The steps of the reset up to the first write of the configuration. -/
def clearBusClocks : Driver Unit := do
  Driver.setBits .cr Cr.hsiOn
  Driver.modify .cfgr (· &&& keepBesideBusClocks)

/-- The steps between the two writes of the configuration. -/
def stopOscillators : Driver Unit := do
  Driver.modify .cr (· &&& keepBesideOscillators)
  Driver.modify .cr (· &&& keepBesideBypass)

/-- The steps after the second write. -/
def finishReset : Driver Unit := do
  Driver.write .cir clearClockInterrupts
  SystemControl.setVectorTable SystemControl.flashTable

theorem resetPart_eq :
    resetPart = clearBusClocks >>= fun _ => stopOscillators >>= fun _ =>
      Driver.modify .cfgr (· &&& keepBesidePll) >>= fun _ => finishReset := by
  unfold resetPart resetClocks clearBusClocks stopOscillators finishReset
  simp only [bind_assoc]

/-- With no change under way, a read of the configuration changes nothing. -/
theorem tick_cfgr_eq {p : Part} (h : p.pending.get .sysclk = 0) : p.tick .cfgr = p := by
  show p.countDown .sysclk = p
  unfold Part.countDown
  rw [h]

include ht in
/-- A part that runs from the internal oscillator, with no switch under way, stays
on it when the source is cleared. -/
theorem clearSource_onSource {p : Part} (hhsi : Cfgr.running (p.peek .cfgr) = .hsi)
    (hquiet : p.pending.get .sysclk = 0) :
    OnSource .hsi ((p.tick .cfgr).write t .cfgr (p.peek .cfgr &&& keepBesideBusClocks)) := by
  have hsws : Cfgr.running (p.peek .cfgr &&& keepBesideBusClocks) = .hsi := by
    rw [Cfgr.running, Word.get_and_of_disjoint _ _ (by decide)]
    rfl
  have hsw : Cfgr.requested (p.peek .cfgr &&& keepBesideBusClocks) = .hsi := by
    rw [Cfgr.requested, Word.get_and_of_disjoint _ _ (by decide)]
    rfl
  rw [tick_cfgr_eq hquiet]
  refine ⟨?_, ?_⟩
  · rcases Part.running_write ht (p.peek .cfgr &&& keepBesideBusClocks) p with
      hold | hwritten | hrequested
    · exact hold.trans hhsi
    · exact hwritten.trans hsws
    · exact hrequested.trans hsw
  · refine Eq.trans (congrArg SysclkSource.ofCode ?_) hsw
    exact (Part.steady_write ht Register.cfgr_open _ p).get (by decide)

include ht in
/-- The source and the dividers are cleared. If the internal oscillator was in
use and no switch was under way, it stays in use. -/
theorem clearBusClocks_ensures (p : Part) :
    Ensures (simulated t) patience (fun _ => True) clearBusClocks p
      (fun _ q => Word.AgreeOn (~~~(keepBesideBusClocks ||| Cfgr.sws.mask))
          (q.peek .cfgr) 0 ∧
        (Cfgr.running (p.peek .cfgr) = .hsi → p.pending.get .sysclk = 0 → OnSource .hsi q)) := by
  refine .bind (R := fun _ q => q.peek .cfgr = p.peek .cfgr ∧
    q.pending.get .sysclk = p.pending.get .sysclk) ?_ ?_
  · refine .modify trivial trivial ⟨?_, ?_⟩
    · have hwrote := Part.wrote_write (p := p.tick .cr) ht (v := p.peek .cr ||| Cr.hsiOn)
        (Register.cr_open.takes t _)
      have hvalue := hwrote.other .cfgr (by decide) Register.cfgr_open.notUsart
      exact hvalue.trans (p.peek_tick_of_ne (by decide))
    · have hwrite := Part.pending_write_of_ne (r := .cr) (f := .sysclk) t
        (p.peek .cr ||| Cr.hsiOn) (p.tick .cr) (by decide)
      exact hwrite.trans (p.pending_tick_of_ne (by decide))
  rintro _ q ⟨hcfgr, hpending⟩
  refine .modify trivial trivial ⟨?_, fun hhsi hquiet => ?_⟩
  · have hsteady := Part.steady_write ht Register.cfgr_open
      (q.peek .cfgr &&& keepBesideBusClocks) (q.tick .cfgr)
    have hzero : keepBesideBusClocks &&& ~~~(keepBesideBusClocks ||| Cfgr.sws.mask) = 0 := by
      decide
    refine (hsteady.mono (by decide)).trans ?_
    rw [Word.AgreeOn, BitVec.and_assoc, hzero]
    simp
  · exact clearSource_onSource ht (hcfgr ▸ hhsi) (hpending.trans hquiet)

include ht in
/-- The steps in between have nothing to do with the configuration. -/
theorem stopOscillators_confines :
    Confines t patience (.only .cr (BitVec.allOnes 32)) stopOscillators := by
  refine .bind (.modify ht fun w => ?_) fun _ => .modify ht fun w => ?_
  · exact Word.agreeOn_and w (by decide)
  · exact Word.agreeOn_and w (by decide)

include ht in
/-- The steps at the end have nothing to do with it either. -/
theorem finishReset_confines : Confines t patience Footprint.interrupts finishReset :=
  .bind (.write ht _ (by decide)) fun _ => .write ht _ (by decide)

include ht in
/-- After the reset nothing of the clock tree is set, and the registers
outside of the reset's footprint are as before. -/
theorem resetPart_ensures (p : Part) :
    Ensures (simulated t) patience (fun _ => True) resetPart p
      (fun _ q => Confined Footprint.reset p q ∧
        Word.AgreeOn Cfgr.tree (q.peek .cfgr) 0 ∧
        (Cfgr.running (p.peek .cfgr) = .hsi → p.pending.get .sysclk = 0 → OnSource .hsi q)) := by
  have hdetail : Ensures (simulated t) patience (fun _ => True) resetPart p
      (fun _ q => Word.AgreeOn Cfgr.tree (q.peek .cfgr) 0 ∧
        (Cfgr.running (p.peek .cfgr) = .hsi → p.pending.get .sysclk = 0 → OnSource .hsi q)) := by
    rw [resetPart_eq]
    refine .bind (clearBusClocks_ensures ht p) ?_
    intro _ q1 hq1
    obtain ⟨hbuses, hhsi⟩ := hq1
    refine .bind (stopOscillators_confines ht q1).unguarded ?_
    intro _ q2 h2
    have hbuses2 : Word.AgreeOn (~~~(keepBesideBusClocks ||| Cfgr.sws.mask)) (q2.peek .cfgr) 0 :=
      (h2.agreeOn_open Register.cfgr_open (by decide)).trans hbuses
    refine .bind (R := fun _ q => Word.AgreeOn Cfgr.tree (q.peek .cfgr) 0 ∧
      (Cfgr.running (p.peek .cfgr) = .hsi → p.pending.get .sysclk = 0 → OnSource .hsi q)) ?_ ?_
    · refine .modifyOpen ht Register.cfgr_open
        (fun w => Word.agreeOn_and w (by decide : ~~~(~~~keepBesidePll) &&& keepBesidePll = _))
        (fun _ _ => trivial) ?_
      intro _ q3 _ h3 hagree
      refine ⟨trivial, ?_, fun h h' => (hhsi h h').of_confined h2 (by decide) |>.of_confined h3
        (by decide)⟩
      refine (hagree.mono (by decide)).trans ?_
      unfold Word.AgreeOn
      rw [BitVec.and_assoc, hbuses2.and_eq (by decide)]
      simp
    · intro _ q3 hq3
      obtain ⟨htree, hhsi3⟩ := hq3
      refine (finishReset_confines ht q3).unguarded.imp ?_
      intro _ q h
      refine ⟨?_, fun h' h'' => (hhsi3 h' h'').of_confined h (by decide)⟩
      exact (h.agreeOn_open Register.cfgr_open (by decide)).trans htree
  exact ((resetPart_confines ht patience p).and hdetail).unguarded

end Hardware

end BringUp
