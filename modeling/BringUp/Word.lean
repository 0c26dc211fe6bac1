/-!
Register words and their bit fields.

* `Word`, `Byte`: the contents of a 32-bit register and of an 8-bit number;
  `Word.has`, `Word.hex`.
* `Field`: a mask and the position of its lowest bit, with `Field.get` and
  `Field.put`.

Main statements: a field reads back what was put there (`Field.get_put`),
other bits keep their value (`Field.put_outside`), and fields with disjoint
masks do not see each other (`Field.get_put_of_disjoint`).
-/

namespace BringUp

/-- The contents of a 32-bit register. -/
abbrev Word := BitVec 32

/-- The contents of an 8-bit number or flag set. -/
abbrev Byte := BitVec 8

/-- `n` as `0x` and at least eight lower-case hexadecimal digits. -/
def hexText (n : Nat) : String :=
  let digits := Nat.toDigits 16 n
  "0x" ++ String.ofList (List.replicate (8 - digits.length) '0' ++ digits)

namespace Word

/-- Some bit under `mask` is set. -/
def has (w mask : Word) : Bool :=
  w &&& mask != 0

/-- The written form of a register word. -/
def hex (w : Word) : String :=
  hexText w.toNat

end Word

/-- A run of bits inside a word: the mask that covers it and the position of
its lowest bit. -/
structure Field where
  mask : Word
  shift : Nat
  shift_lt : shift < 32 := by decide

namespace Field

/-- The field's value, moved down to bit 0. -/
def get (f : Field) (w : Word) : Word :=
  (w &&& f.mask) >>> f.shift

/-- `w` with the field replaced by `v`; what does not fit under the mask is
cut off. -/
def put (f : Field) (v w : Word) : Word :=
  (w &&& ~~~f.mask) ||| ((v <<< f.shift) &&& f.mask)

/-- A field holds no more than its mask has room for. -/
theorem toNat_get_le (f : Field) (w : Word) :
    (f.get w).toNat ≤ f.mask.toNat >>> f.shift := by
  rw [get, BitVec.toNat_ushiftRight, Nat.shiftRight_eq_div_pow, Nat.shiftRight_eq_div_pow,
    BitVec.toNat_and]
  exact Nat.div_le_div_right Nat.and_le_right

theorem put_and_mask (f : Field) (v w : Word) :
    f.put v w &&& f.mask = (v <<< f.shift) &&& f.mask := by
  ext i hi
  simp only [put, BitVec.getElem_and, BitVec.getElem_or, BitVec.getElem_not]
  cases f.mask[i] <;> simp

/-- Reading a field gives back the value that was put there, as far as it
fits under the mask. -/
theorem get_put (f : Field) (v w : Word) :
    f.get (f.put v w) = ((v <<< f.shift) &&& f.mask) >>> f.shift := by
  simp only [get, put_and_mask]

/-- Bits outside the mask keep their value. -/
theorem put_outside (f : Field) (v w : Word) :
    f.put v w &&& ~~~f.mask = w &&& ~~~f.mask := by
  ext i hi
  simp only [put, BitVec.getElem_and, BitVec.getElem_or, BitVec.getElem_not]
  cases f.mask[i] <;> simp

/-- A field with a disjoint mask reads the same after the write. -/
theorem get_put_of_disjoint {f g : Field} (h : f.mask &&& g.mask = 0)
    (v w : Word) : g.get (f.put v w) = g.get w := by
  have hbit : f.put v w &&& g.mask = w &&& g.mask := by
    ext i hi
    have hi' : (f.mask &&& g.mask)[i] = (0 : Word)[i] := by rw [h]
    simp only [BitVec.getElem_and] at hi'
    simp only [put, BitVec.getElem_and, BitVec.getElem_or, BitVec.getElem_not]
    cases hf : f.mask[i] <;> cases hg : g.mask[i] <;> simp_all
  simp only [get, hbit]

end Field

end BringUp
