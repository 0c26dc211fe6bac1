import BringUp.Simulation.StatusFlag

/-!
Words that agree on the bits under a mask.

* `Word.AgreeOn mask a b`: the two words have the same bits under `mask`.
* `Word.AgreeOn.get`, `Word.AgreeOn.has`, `Word.AgreeOn.shown`, …: whatever
  looks only under the mask sees no difference.
* `Word.agreeOn_put`, `Word.agreeOn_or`, …: an operation that changes other
  bits only.

The masks of the registers are closed terms, so the side conditions on masks
are decided by evaluation.
-/

namespace BringUp

namespace Word

/-- The two words have the same bits under the mask. -/
def AgreeOn (mask a b : Word) : Prop :=
  a &&& mask = b &&& mask

/-- Disjoint masks have no bit in common. -/
theorem and_getElem_of_disjoint {a b : Word} (h : a &&& b = 0) (i : Nat) (hi : i < 32) :
    (a[i] && b[i]) = false := by
  have hbit : (a &&& b)[i] = (0 : Word)[i] := by rw [h]
  simpa using hbit

/-- The bits of a mask that is part of another are bits of that one. -/
theorem getElem_of_subset {m k : Word} (h : m &&& k = m) (i : Nat) (hi : i < 32)
    (hm : m[i] = true) : k[i] = true := by
  have hbit : (m &&& k)[i] = m[i] := by rw [h]
  simpa [hm] using hbit

/-- What is disjoint from two masks is disjoint from both together. -/
theorem and_or_eq_zero_iff (w a b : Word) :
    w &&& (a ||| b) = 0 ↔ w &&& a = 0 ∧ w &&& b = 0 := by
  rw [BitVec.and_or_distrib_left]
  exact BitVec.or_eq_zero_iff

/-- What is disjoint from a third mask each is so together. -/
theorem or_and_eq_zero {a b w : Word} (ha : a &&& w = 0) (hb : b &&& w = 0) :
    (a ||| b) &&& w = 0 := by
  rw [BitVec.and_comm] at ha hb ⊢
  exact (and_or_eq_zero_iff w a b).mpr ⟨ha, hb⟩

namespace AgreeOn

variable {mask sub a b c : Word}

theorem refl (mask a : Word) : AgreeOn mask a a :=
  rfl

theorem trans (h : AgreeOn mask a b) (h' : AgreeOn mask b c) : AgreeOn mask a c :=
  Eq.trans h h'

/-- Words that agree under a mask agree under every part of it. -/
theorem mono (h : AgreeOn mask a b) (hsub : sub &&& mask = sub) : AgreeOn sub a b := by
  have hand : ∀ w : Word, w &&& sub = w &&& mask &&& sub := by
    intro w
    rw [BitVec.and_assoc, BitVec.and_comm mask sub, hsub]
  unfold AgreeOn
  rw [hand a, hand b, h]

theorem and_eq (h : AgreeOn mask a b) (hsub : sub &&& mask = sub) :
    a &&& sub = b &&& sub :=
  h.mono hsub

/-- Words that agree on two masks agree on both together. -/
theorem union {mask' : Word} (h : AgreeOn mask a b) (h' : AgreeOn mask' a b) :
    AgreeOn (mask ||| mask') a b := by
  unfold AgreeOn
  rw [BitVec.and_or_distrib_left, BitVec.and_or_distrib_left, h, h']

/-- Words with the same field have the same bits there. -/
theorem of_get {f : Field} (h : f.get a = f.get b)
    (hlow : ∀ i < f.shift, f.mask.getLsbD i = false) : AgreeOn f.mask a b := by
  apply BitVec.eq_of_getLsbD_eq
  intro i hi
  by_cases hshift : i < f.shift
  · rw [BitVec.getLsbD_and, BitVec.getLsbD_and, hlow i hshift, Bool.and_false, Bool.and_false]
  · have hbit : (f.get a).getLsbD (i - f.shift) = (f.get b).getLsbD (i - f.shift) := by rw [h]
    simpa only [Field.get, BitVec.getLsbD_ushiftRight, Nat.add_sub_cancel' (Nat.not_lt.mp hshift)]
      using hbit

theorem has (h : AgreeOn mask a b) (hsub : sub &&& mask = sub) :
    a.has sub = b.has sub := by
  simp only [Word.has, h.and_eq hsub]

theorem get (h : AgreeOn mask a b) {f : Field} (hsub : f.mask &&& mask = f.mask) :
    f.get a = f.get b := by
  simp only [Field.get, h.and_eq hsub]

theorem getLsbD (h : AgreeOn mask a b) {i : Nat} (hi : mask.getLsbD i = true) :
    a.getLsbD i = b.getLsbD i := by
  have hbit : (a &&& mask).getLsbD i = (b &&& mask).getLsbD i := by rw [h]
  simpa [BitVec.getLsbD_and, hi] using hbit

theorem shown (h : AgreeOn mask a b) {f : StatusFlag}
    (hsub : f.status &&& mask = f.status) : f.shown a = f.shown b :=
  h.and_eq hsub

theorem wanted (h : AgreeOn mask a b) {f : StatusFlag}
    (hsub : f.control &&& mask = f.control) : f.wanted a = f.wanted b := by
  simp only [StatusFlag.wanted, h.and_eq hsub]

end AgreeOn

/-! ## Single bits -/

/-- A mask with one bit tells what that bit is. -/
theorem has_twoPow (w : Word) (i : Fin 32) : w.has (BitVec.twoPow 32 i) = w.getLsbD i := by
  have hnonzero : (BitVec.twoPow 32 i != 0) = true := by
    revert i
    decide
  rw [has, BitVec.and_twoPow]
  cases w.getLsbD i with
  | false => rfl
  | true => exact hnonzero

/-- Words that both have a bit, or both do not, agree on it. -/
theorem AgreeOn.of_has {a b : Word} {i : Fin 32}
    (h : a.has (BitVec.twoPow 32 i) = b.has (BitVec.twoPow 32 i)) :
    AgreeOn (BitVec.twoPow 32 i) a b := by
  rw [has_twoPow, has_twoPow] at h
  rw [AgreeOn, BitVec.and_twoPow, BitVec.and_twoPow, h]

/-! ## Operations on other bits -/

variable {mask : Word}

theorem agreeOn_or (w : Word) {bits : Word} (h : bits &&& mask = 0) :
    AgreeOn mask (w ||| bits) w := by
  unfold AgreeOn
  ext i hi
  have hbit := and_getElem_of_disjoint h i hi
  simp only [BitVec.getElem_and, BitVec.getElem_or]
  cases hm : mask[i] <;> simp_all

theorem agreeOn_and (w : Word) {kept : Word} (h : mask &&& kept = mask) :
    AgreeOn mask (w &&& kept) w := by
  unfold AgreeOn
  rw [BitVec.and_assoc, BitVec.and_comm kept mask, h]

theorem agreeOn_andNot (w : Word) {bits : Word} (h : bits &&& mask = 0) :
    AgreeOn mask (w &&& ~~~bits) w := by
  unfold AgreeOn
  ext i hi
  have hbit := and_getElem_of_disjoint h i hi
  simp only [BitVec.getElem_and, BitVec.getElem_not]
  cases hm : mask[i] <;> simp_all

theorem agreeOn_put (f : Field) (v w : Word) (h : f.mask &&& mask = 0) :
    AgreeOn mask (f.put v w) w := by
  unfold AgreeOn
  ext i hi
  have hbit := and_getElem_of_disjoint h i hi
  simp only [Field.put, BitVec.getElem_and, BitVec.getElem_or, BitVec.getElem_not]
  cases hm : mask[i] <;> simp_all

/-- Inside the bits that are put in, only they matter. -/
theorem replaced_and (w new bits : Word) (h : new &&& bits = new) :
    ((w &&& ~~~bits) ||| new) &&& bits = new := by
  ext i hi
  have hsub := getElem_of_subset h i hi
  simp only [BitVec.getElem_and, BitVec.getElem_or, BitVec.getElem_not]
  cases hb : bits[i] <;> cases hn : new[i] <;> simp_all

/-- Bits that were set are set. -/
theorem or_and_of_subset (w : Word) {bits mask : Word} (h : mask &&& bits = mask) :
    (w ||| bits) &&& mask = mask := by
  ext i hi
  have hbit := getElem_of_subset h i hi
  simp only [BitVec.getElem_and, BitVec.getElem_or]
  cases hm : mask[i] <;> simp_all

/-- A mask of bits that were set finds them. -/
theorem has_or_of_subset (w : Word) {bits mask : Word} (h : mask &&& bits = mask)
    (hmask : mask ≠ 0) : (w ||| bits).has mask = true := by
  rw [has, or_and_of_subset w h, bne_iff_ne]
  exact hmask

/-- Bits that were cleared are clear. -/
theorem andNot_and_of_subset (w : Word) {bits mask : Word} (h : mask &&& bits = mask) :
    w &&& ~~~bits &&& mask = 0 := by
  ext i hi
  have hbit := getElem_of_subset h i hi
  simp only [BitVec.getElem_and, BitVec.getElem_not]
  cases hm : mask[i] <;> simp_all

/-- A mask of bits that were cleared finds none. -/
theorem has_andNot_of_subset (w : Word) {bits mask : Word} (h : mask &&& bits = mask) :
    (w &&& ~~~bits).has mask = false := by
  rw [has, andNot_and_of_subset w h]
  rfl

/-- A field that the word keeps nothing of is zero. -/
theorem get_and_of_disjoint (f : Field) (w : Word) {kept : Word} (h : kept &&& f.mask = 0) :
    f.get (w &&& kept) = 0 := by
  simp only [Field.get]
  rw [BitVec.and_assoc, h]
  simp

end Word

end BringUp
