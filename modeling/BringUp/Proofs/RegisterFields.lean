import Mathlib.Algebra.Ring.Nat
import BringUp.Device
import BringUp.Proofs.OperatingPoint

/-!
Register fields that share a register.

* `Field.put_comm`, `Field.put_put`: writes of fields with disjoint masks change
  places, and of two writes of one field the last counts.
* `Field.Spans f n`: the mask is the run of `n` bits that starts at the shift.
* `Device.memory`: registers that hold what was written to them.
* `Cfgr.layout`: the fields of the clock configuration, with their widths.
* `Cfgr.Driven f v`: the drivers put `v` into the field `f` of that register.

Main statement: on registers that hold what was written, fields with disjoint masks
are independent of each other, and those of the clock configuration are such fields
(`fields_independent`).

A value that is too wide for its field is cut to what the mask lets through, and a
mask that does not start at the shift cuts off low bits as well. So what reads back
is said for any mask (`Field.get_put`), and that it is the value itself only where
the mask is a run (`Field.Spans.fits`).
-/

namespace BringUp

open Clock

/-! ## Words -/

namespace Field

variable {f g : Field}

/-- Fields with disjoint masks can be written in either order. -/
theorem put_comm (h : f.mask &&& g.mask = 0) (v w x : Word) :
    f.put v (g.put w x) = g.put w (f.put v x) := by
  ext i hi
  have hbit := Word.and_getElem_of_disjoint h i hi
  simp only [put, BitVec.getElem_and, BitVec.getElem_or, BitVec.getElem_not]
  cases hf : f.mask[i] <;> cases hg : g.mask[i] <;> simp_all

/-- Of two writes the last one counts. -/
theorem put_put (f : Field) (v w x : Word) : f.put v (f.put w x) = f.put v x := by
  ext i hi
  simp only [put, BitVec.getElem_and, BitVec.getElem_or, BitVec.getElem_not]
  cases f.mask[i] <;> simp

/-- The mask is the run of `n` bits that starts at the shift. -/
def Spans (f : Field) (n : Nat) : Prop :=
  f.shift + n ≤ 32 ∧ ∀ i < 32, f.mask.getLsbD i = decide (f.shift ≤ i ∧ i < f.shift + n)

instance (f : Field) (n : Nat) : Decidable (f.Spans n) :=
  inferInstanceAs (Decidable (_ ∧ _))

/-- A run of `n` bits has room for the numbers of `n` bits. -/
theorem Spans.fits {n : Nat} (h : f.Spans n) {v : Word} (hv : v.toNat < 2 ^ n) : f.Fits v := by
  obtain ⟨hwidth, hmask⟩ := h
  refine BitVec.eq_of_getLsbD_eq fun i _ => ?_
  rw [BitVec.getLsbD_ushiftRight, BitVec.getLsbD_and, BitVec.getLsbD_shiftLeft,
    Nat.add_sub_cancel_left]
  by_cases hi : i < n
  · have hlt : f.shift + i < 32 := by omega
    have hrun : f.shift ≤ f.shift + i ∧ f.shift + i < f.shift + n := by omega
    have hup : ¬f.shift + i < f.shift := by omega
    rw [hmask _ hlt, decide_eq_true hrun, decide_eq_true hlt, decide_eq_false hup]
    simp
  · have hzero : v.getLsbD i = false :=
      Nat.testBit_lt_two_pow (Nat.lt_of_lt_of_le hv (Nat.pow_le_pow_right (by decide)
        (Nat.not_lt.mp hi)))
    rw [hzero, Bool.and_false, Bool.false_and]

end Field

/-! ## Registers that hold what was written -/

/-- Registers that hold what was written to them, and nothing else. -/
def Device.memory : Device RegisterFile where
  read r file := (file.get r, file)
  write r v file := file.set r v
  loadVector _ _ _ := .stub
  storeVector _ _ file := file

section

variable (patience : Nat) (r : Register) (f : Field) (v : Word) (file : RegisterFile)

theorem run_writeField_memory :
    (Driver.writeField r f v).run (Device.memory.handler patience) file =
      ⟨.ok (), file.set r (f.put v (file.get r)), []⟩ :=
  rfl

theorem run_readField_memory :
    (Driver.readField r f).run (Device.memory.handler patience) file =
      ⟨.ok (f.get (file.get r)), file, []⟩ :=
  rfl

/-- A field given by its mask and its shift is written like any other. -/
theorem Driver.writeShifted_eq : writeShifted r f.mask f.shift v = writeField r f v := by
  simp only [writeShifted, f.shift_lt, dif_pos]
  rfl

theorem Driver.readShifted_eq : readShifted r f.mask f.shift = readField r f := by
  simp only [readShifted, f.shift_lt, dif_pos]
  rfl

/-- A write of `v` to a field has led from one register file to another. -/
structure FieldWritten (file' : RegisterFile) : Prop where
  run_eq :
    (Driver.writeField r f v).run (Device.memory.handler patience) file = ⟨.ok (), file', []⟩
  others : ∀ s, s ≠ r → file'.get s = file.get s
  /-- The bits outside the mask are unchanged. -/
  outside : file'.get r &&& ~~~f.mask = file.get r &&& ~~~f.mask
  /-- The value reads back, cut to what the mask lets through. -/
  reads_back : (Driver.readField r f).run (Device.memory.handler patience) file' =
    ⟨.ok (((v <<< f.shift) &&& f.mask) >>> f.shift), file', []⟩
  /-- In a run of bits that has room for it, it reads back whole. -/
  reads_whole : ∀ n, f.Spans n → v.toNat < 2 ^ n →
    (Driver.readField r f).run (Device.memory.handler patience) file' = ⟨.ok v, file', []⟩
  /-- To write the same again changes nothing. -/
  again :
    (Driver.writeField r f v).run (Device.memory.handler patience) file' = ⟨.ok (), file', []⟩

theorem fieldWritten_set :
    FieldWritten patience r f v file (file.set r (f.put v (file.get r))) := by
  have hread : (Driver.readField r f).run (Device.memory.handler patience)
      (file.set r (f.put v (file.get r))) =
        ⟨.ok (((v <<< f.shift) &&& f.mask) >>> f.shift),
          file.set r (f.put v (file.get r)), []⟩ := by
    rw [run_readField_memory, Table.get_set_self, Field.get_put]
  refine ⟨rfl, fun s hs => Table.get_set_of_ne _ hs.symm _, ?_, hread, fun n hspan hv => ?_, ?_⟩
  · rw [Table.get_set_self, Field.put_outside]
  · have hfits : ((v <<< f.shift) &&& f.mask) >>> f.shift = v := hspan.fits hv
    rw [hread, hfits]
  · rw [run_writeField_memory, Table.get_set_self, Field.put_put, Table.set_set]

/-- Writes of two fields have led from one register file to another, in either order,
and each field reads back what its own write put there. -/
structure FieldsWritten (g : Field) (w : Word) (file' : RegisterFile) : Prop where
  run_eq : (do
      Driver.writeField r f v
      Driver.writeField r g w : Driver Unit).run (Device.memory.handler patience) file =
    ⟨.ok (), file', []⟩
  run_swapped : (do
      Driver.writeField r g w
      Driver.writeField r f v : Driver Unit).run (Device.memory.handler patience) file =
    ⟨.ok (), file', []⟩
  first : (Driver.readField r f).run (Device.memory.handler patience) file' =
    ⟨.ok (((v <<< f.shift) &&& f.mask) >>> f.shift), file', []⟩
  second : (Driver.readField r g).run (Device.memory.handler patience) file' =
    ⟨.ok (((w <<< g.shift) &&& g.mask) >>> g.shift), file', []⟩

end

theorem fieldsWritten_set {f g : Field} (h : f.mask &&& g.mask = 0) (patience : Nat) (r : Register)
    (v w : Word) (file : RegisterFile) :
    FieldsWritten patience r f v file g w (file.set r (g.put w (f.put v (file.get r)))) := by
  have hswap : g.mask &&& f.mask = 0 := by rwa [BitVec.and_comm]
  -- the second write finds what the first one left
  have htwo : ∀ (f g : Field) (v w : Word), (do
      Driver.writeField r f v
      Driver.writeField r g w : Driver Unit).run (Device.memory.handler patience) file =
        ⟨.ok (), file.set r (g.put w (f.put v (file.get r))), []⟩ := by
    intro f g v w
    rw [Proc.run_bind_of_run (run_writeField_memory patience r f v file)
      (run_writeField_memory patience r g w _), Table.get_set_self, Table.set_set]
    rfl
  refine ⟨htwo f g v w, ?_, ?_, ?_⟩
  · rw [htwo g f w v, Field.put_comm h]
  · rw [run_readField_memory, Table.get_set_self, Field.get_put_of_disjoint hswap, Field.get_put]
  · rw [run_readField_memory, Table.get_set_self, Field.get_put]

/-! ## The clock configuration -/

namespace Clock.Cfgr

/-- The bit that selects the PLL's input, as a field. -/
def pllInputField : Field := { mask := pllSource, shift := 16 }

/-- The bit of the halver in front of the PLL, as a field. -/
def pllHalverField : Field := { mask := pllHalved, shift := 17 }

/-- The fields of the register, with their widths. -/
def layout : List (Field × Nat) :=
  [(sw, 2), (sws, 2), (hpre, 4), (ppre1, 3), (ppre2, 3), (adcpre, 2), (pllInputField, 1),
    (pllHalverField, 1), (pllMultiplier, 4)]

/-- What a setting puts into the field of the PLL's input. -/
def inputCode (pll : PllSetting) : Word :=
  if pll.source = .hse then 1 else 0

/-- What it puts into the field of the halver, which is left off the internal
oscillator. -/
def halverCode (pll : PllSetting) (divider : HseDivider) : Word :=
  if pll.source = .hse ∧ divider = .div2 then 1 else 0

/-- What it puts into the field of the multiplier. -/
def multiplierCode (pll : PllSetting) : Word :=
  BitVec.ofNat 32 (pll.multiplier.toNat - 2)

/-- The drivers put `v` into the field. -/
inductive Driven : Field → Word → Prop where
  | source (s : SysclkSource) : Driven sw s.code
  | core (d : AhbDivider) : Driven hpre d.code
  | firstBus (d : ApbDivider) : Driven ppre1 d.code
  | secondBus (d : ApbDivider) : Driven ppre2 d.code
  | converter (d : AdcDivider) : Driven adcpre d.code
  | pllInput (pll : PllSetting) : Driven pllInputField (inputCode pll)
  | pllHalver (pll : PllSetting) (divider : HseDivider) :
      Driven pllHalverField (halverCode pll divider)
  | pllFactor (pll : PllSetting) (h : pll.inRange = true) :
      Driven pllMultiplier (multiplierCode pll)

/-- No two fields of the register have a bit in common. -/
theorem layout_disjoint : layout.Pairwise fun a b => a.1.mask &&& b.1.mask = 0 := by
  decide

/-- Each is a run of bits. -/
theorem layout_spans : ∀ a ∈ layout, a.1.Spans a.2 := by
  decide

/-- Each has room for what the drivers put there. -/
theorem Driven.lt {f : Field} {v : Word} (h : Driven f v) :
    ∃ n, (f, n) ∈ layout ∧ v.toNat < 2 ^ n := by
  cases h with
  | source s => exact ⟨2, by simp [layout], by cases s <;> decide⟩
  | core d => exact ⟨4, by simp [layout], by cases d <;> decide⟩
  | firstBus d => exact ⟨3, by simp [layout], by cases d <;> decide⟩
  | secondBus d => exact ⟨3, by simp [layout], by cases d <;> decide⟩
  | converter d => exact ⟨2, by simp [layout], by cases d <;> decide⟩
  | pllInput pll =>
      refine ⟨1, by simp [layout], ?_⟩
      unfold inputCode
      split <;> decide
  | pllHalver pll divider =>
      refine ⟨1, by simp [layout], ?_⟩
      unfold halverCode
      split <;> decide
  | pllFactor pll h =>
      obtain ⟨_, hmax⟩ := pll.inRange_iff.mp h
      refine ⟨4, by simp [layout], ?_⟩
      rw [multiplierCode, BitVec.toNat_ofNat]
      omega

/-- The PLL is set by one write of three fields. -/
theorem pll_written (pll : PllSetting) (divider : HseDivider) (cfgr : Word) :
    (cfgr &&& ~~~Cfgr.pll) ||| pll.code divider =
      pllMultiplier.put (multiplierCode pll)
        (pllHalverField.put (halverCode pll divider) (pllInputField.put (inputCode pll) cfgr)) := by
  have hbits : pll.sourceBits divider = ((inputCode pll <<< 16) &&& pllSource) |||
      ((halverCode pll divider <<< 17) &&& pllHalved) := by
    unfold PllSetting.sourceBits inputCode halverCode
    cases pll.source <;> cases divider <;> decide
  have hinput : pllSource &&& pllMultiplier.mask = 0 := by decide
  have hhalver : pllHalved &&& pllMultiplier.mask = 0 := by decide
  have hboth : pllSource &&& pllHalved = 0 := by decide
  rw [PllSetting.code, hbits]
  ext i hi
  have h1 := Word.and_getElem_of_disjoint hinput i hi
  have h2 := Word.and_getElem_of_disjoint hhalver i hi
  have h3 := Word.and_getElem_of_disjoint hboth i hi
  simp only [Field.put, Cfgr.pll, pllInputField, pllHalverField, multiplierCode,
    BitVec.getElem_and, BitVec.getElem_or, BitVec.getElem_not]
  cases hs : pllSource[i] <;> cases hh : pllHalved[i] <;> cases hm : pllMultiplier.mask[i] <;>
    simp_all

end Clock.Cfgr

/-! ## Independence -/

/-- Fields of a register that holds what was written to it, for every content, all
masks, all shifts below the width and all values. A write leaves the bits outside
its mask, and reads back as far as the mask lets it through, whole if the mask is a
run of bits from the shift with room for the value; repeating it changes nothing.
With disjoint masks two writes change places, and each field reads back its own.
The fields of the clock configuration are disjoint runs, each with room for what
the drivers put there. -/
theorem fields_independent (patience : Nat) (r : Register) (file : RegisterFile) :
    (∀ (f : Field) (v : Word),
      Driver.writeShifted r f.mask f.shift v = Driver.writeField r f v ∧
      Driver.readShifted r f.mask f.shift = Driver.readField r f ∧
      ∃ file', FieldWritten patience r f v file file') ∧
    (∀ (f g : Field) (v w : Word), f.mask &&& g.mask = 0 →
      ∃ file', FieldsWritten patience r f v file g w file') ∧
    (Cfgr.layout.Pairwise fun a b => a.1.mask &&& b.1.mask = 0) ∧
    (∀ a ∈ Cfgr.layout, a.1.Spans a.2) ∧
    (∀ f v, Cfgr.Driven f v → ∃ n, (f, n) ∈ Cfgr.layout ∧ v.toNat < 2 ^ n) ∧
    (∀ (pll : PllSetting) (divider : HseDivider) (cfgr : Word),
      (cfgr &&& ~~~Cfgr.pll) ||| pll.code divider =
        Cfgr.pllMultiplier.put (Cfgr.multiplierCode pll)
          (Cfgr.pllHalverField.put (Cfgr.halverCode pll divider)
            (Cfgr.pllInputField.put (Cfgr.inputCode pll) cfgr))) := by
  refine ⟨fun f v => ?_, fun f g v w h => ?_, Cfgr.layout_disjoint, Cfgr.layout_spans,
    fun f v h => h.lt, Cfgr.pll_written⟩
  · exact ⟨Driver.writeShifted_eq r f v, Driver.readShifted_eq r f, _,
      fieldWritten_set patience r f v file⟩
  · exact ⟨_, fieldsWritten_set h patience r v w file⟩

/-- The core's divider beside that of the first bus, in a register with all bits set.
The value for the core is too wide, and is cut; it does not spill over to the bus. -/
theorem fields_independent_wideCore :
    Cfgr.hpre.mask &&& Cfgr.ppre1.mask = 0 ∧
    ∃ file', FieldsWritten 0 .cfgr Cfgr.hpre 0xF5 (Table.replicate 0xFFFFFFFF) Cfgr.ppre1 4 file' ∧
      (Driver.readField .cfgr Cfgr.hpre).run (Device.memory.handler 0) file' = ⟨.ok 5, file', []⟩ ∧
      (Driver.readField .cfgr Cfgr.ppre1).run (Device.memory.handler 0) file' =
        ⟨.ok 4, file', []⟩ := by
  have hdisjoint : Cfgr.hpre.mask &&& Cfgr.ppre1.mask = 0 := by decide
  obtain ⟨file', h⟩ := (fields_independent 0 .cfgr (Table.replicate 0xFFFFFFFF)).2.1
    Cfgr.hpre Cfgr.ppre1 0xF5 4 hdisjoint
  exact ⟨hdisjoint, file', h, h.first, h.second⟩

end BringUp
