import BringUp.Fault

/-!
Unsigned arithmetic of fixed width that faults instead of wrapping.

* `Checked.add`, `Checked.sub`, `Checked.mul`, `Checked.div`: 32-bit
  operations on numbers that are themselves below 2^32.
* `Checked.bit`: the word with one bit set.
* `Checked.shiftLeft`: a shift by less than the width.
-/

namespace BringUp.Checked

/-- The first number that 32 bits cannot hold. -/
def limit : Nat := 0x100000000

/-- `n` if 32 bits can hold it, else the overflow of `operation`. -/
def fit (operation : Operation) (n : Nat) : Except Fault Nat :=
  if n < limit then .ok n else .error (.overflow operation)

def add (a b : Nat) : Except Fault Nat :=
  fit .add (a + b)

def mul (a b : Nat) : Except Fault Nat :=
  fit .multiply (a * b)

def sub (a b : Nat) : Except Fault Nat :=
  if b ≤ a then .ok (a - b) else .error (.overflow .subtract)

def div (a b : Nat) : Except Fault Nat :=
  if b = 0 then .error .divisionByZero else .ok (a / b)

/-- The value moved up by `amount` bits, which has to be below the width. -/
def shiftLeft {width : Nat} (value : BitVec width) (amount : Nat) :
    Except Fault (BitVec width) :=
  if amount < width then .ok (value <<< amount)
  else .error (.overflow .shiftLeft)

/-- The word of `width` bits in which only bit `position` is set. -/
def bit (width position : Nat) : Except Fault (BitVec width) :=
  shiftLeft 1 position

theorem add_of_lt {a b : Nat} (h : a + b < limit) : add a b = .ok (a + b) := by
  simp [add, fit, h]

theorem sub_of_le {a b : Nat} (h : b ≤ a) : sub a b = .ok (a - b) := by
  simp [sub, h]

theorem mul_of_lt {a b : Nat} (h : a * b < limit) : mul a b = .ok (a * b) := by
  simp [mul, fit, h]

theorem mul_one {a : Nat} (h : a < limit) : mul a 1 = .ok a := by
  simp [mul, fit, h]

theorem div_of_pos {a b : Nat} (h : 0 < b) : div a b = .ok (a / b) := by
  simp [div, Nat.pos_iff_ne_zero.mp h]

end BringUp.Checked
