import Mathlib.Algebra.Order.Round
import Mathlib.Data.Rat.Floor
import Mathlib.Tactic.Linarith
import Mathlib.Tactic.Ring
import BringUp.Proofs.LiveRates

/-!
The baud rate divisor as a rounded quotient.

* `Console.divisor_zero`, `Console.divisor_of_overflow`: the two ways in which there
  is no divisor. The sum is checked before the division.
* `Console.quotient_mul_le`, `Console.lt_quotient_mul`: the two ends of the interval
  that a quotient stands for.

Main statements: the quotient is the nearest integer, and of two that are as near it
is the larger one (`Console.round_eq_quotient`); so the divisor of any two words is
there unless the rate is zero or the sum overflows, and it is the nearest one
(`Console.divisor_nearest`).

Half of an odd rate is rounded down. That costs nothing: a quotient by an odd rate is
never halfway between two integers.
-/

namespace BringUp.Hardware.Console

/-! ## When there is a divisor -/

/-- Nothing can be divided by a rate of zero. Its half is zero as well, so the sum
fits. -/
theorem divisor_zero {clock : Nat} (hclock : clock < Checked.limit) :
    divisor clock 0 = .error .divisionByZero := by
  unfold divisor
  rw [Checked.div_of_pos (by decide : 0 < 2)]
  show (Checked.add clock 0 >>= fun sum => Checked.div sum 0) = _
  rw [Checked.add_of_lt hclock]
  rfl

theorem divisor_of_overflow {clock rate : Nat} (hsum : Checked.limit ≤ clock + rate / 2) :
    divisor clock rate = .error (.overflow .add) := by
  unfold divisor
  rw [Checked.div_of_pos (by decide : 0 < 2)]
  show (Checked.add clock (rate / 2) >>= fun sum => Checked.div sum rate) = _
  rw [Checked.add, Checked.fit, if_neg (Nat.not_lt.mpr hsum)]
  rfl

/-- A word has no divisor for a rate of zero, or if the sum overflows. -/
theorem divisor_eq_error_iff {clock rate : Nat} (hclock : clock < Checked.limit) {why : Fault} :
    divisor clock rate = .error why ↔
      (why = .divisionByZero ∧ rate = 0) ∨
      (why = .overflow .add ∧ Checked.limit ≤ clock + rate / 2) := by
  rcases Nat.eq_zero_or_pos rate with rfl | hrate
  · rw [divisor_zero hclock]
    refine ⟨fun h => by cases h; exact .inl ⟨rfl, rfl⟩, ?_⟩
    rintro (⟨rfl, -⟩ | ⟨-, hsum⟩)
    · rfl
    · exact absurd hclock (Nat.not_lt.mpr hsum)
  · rcases Nat.lt_or_ge (clock + rate / 2) Checked.limit with hsum | hsum
    · rw [divisor_eq hrate hsum]
      refine ⟨nofun, ?_⟩
      rintro (⟨-, rfl⟩ | ⟨-, hover⟩)
      · exact absurd hrate (Nat.lt_irrefl 0)
      · exact absurd hsum (Nat.not_lt.mpr hover)
    · rw [divisor_of_overflow hsum]
      refine ⟨fun h => by cases h; exact .inr ⟨rfl, hsum⟩, ?_⟩
      rintro (⟨-, rfl⟩ | ⟨rfl, -⟩)
      · exact absurd hrate (Nat.lt_irrefl 0)
      · rfl

/-! ## The nearest integer -/

theorem quotient_mul_le (clock rate : Nat) : quotient clock rate * rate ≤ clock + rate / 2 :=
  Nat.div_mul_le_self _ rate

theorem lt_quotient_mul (clock : Nat) {rate : Nat} (hrate : 0 < rate) :
    clock + rate / 2 < quotient clock rate * rate + rate := by
  have hlt : clock + rate / 2 < (quotient clock rate + 1) * rate :=
    Nat.lt_mul_of_div_lt (Nat.lt_succ_self _) hrate
  rwa [Nat.add_mul, Nat.one_mul] at hlt

/-- The divisor misses the clock by half of the rate at most, rounded down. -/
theorem abs_quotient_mul_sub_le (clock : Nat) {rate : Nat} (hrate : 0 < rate) :
    |(quotient clock rate * rate : ℤ) - clock| ≤ (rate / 2 : ℕ) := by
  have hle := quotient_mul_le clock rate
  have hlt := lt_quotient_mul clock hrate
  obtain ⟨product, hproduct⟩ : ∃ n, n = quotient clock rate * rate := ⟨_, rfl⟩
  rw [← hproduct] at hle hlt
  have hcast : (quotient clock rate * rate : ℤ) = product := by
    rw [hproduct, Nat.cast_mul]
  rw [hcast, abs_le]
  omega

/-- The quotient is the nearest integer. Halfway between two it is the larger one. -/
theorem round_eq_quotient (clock : Nat) {rate : Nat} (hrate : 0 < rate) :
    round ((clock : ℚ) / rate) = quotient clock rate := by
  have hpos : (0 : ℚ) < rate := Nat.cast_pos.mpr hrate
  have hle : 2 * (quotient clock rate * rate) ≤ 2 * clock + rate := by
    have := quotient_mul_le clock rate
    omega
  have hlt : 2 * clock + rate < 2 * (quotient clock rate * rate) + 2 * rate := by
    have := lt_quotient_mul clock hrate
    omega
  have hle' : 2 * ((quotient clock rate : ℚ) * rate) ≤ 2 * clock + rate := by exact_mod_cast hle
  have hlt' : (2 * clock + rate : ℚ) < 2 * (quotient clock rate * rate) + 2 * rate := by
    exact_mod_cast hlt
  rw [round_eq_iff, Set.mem_Ico, le_div_iff₀ hpos, div_lt_iff₀ hpos, Int.cast_natCast]
  constructor <;> linarith

theorem quotient_mono {slower clock : Nat} (h : slower ≤ clock) (rate : Nat) :
    quotient slower rate ≤ quotient clock rate :=
  Nat.div_le_div_right (Nat.add_le_add_right h _)

/-! ## The divisor -/

/-- The divisor for any two words. It cannot be computed if and only if the rate is
zero, or the sum of the clock and half of the rate does not fit a word. Else it fits a
word and misses the clock by half of the rate at most, half of an odd rate being
rounded down; no integer is nearer to the quotient, halfway between two it is the
larger one, and no slower clock has a larger divisor. -/
theorem divisor_nearest (clock rate : Word) :
    (∀ why, divisor clock.toNat rate.toNat = .error why ↔
      (why = .divisionByZero ∧ rate = 0) ∨
      (why = .overflow .add ∧ Checked.limit ≤ clock.toNat + rate.toNat / 2)) ∧
    (rate ≠ 0 → clock.toNat + rate.toNat / 2 < Checked.limit →
      ∃ r, divisor clock.toNat rate.toNat = .ok r ∧ r < Checked.limit ∧
        |(r * rate.toNat : ℤ) - clock.toNat| ≤ (rate.toNat / 2 : ℕ) ∧
        (∀ z : ℤ, |(clock.toNat / rate.toNat : ℚ) - r| ≤ |(clock.toNat / rate.toNat : ℚ) - z|) ∧
        (r : ℤ) = round (clock.toNat / rate.toNat : ℚ) ∧
        ∀ slower : Word, slower ≤ clock →
          ∃ r', divisor slower.toNat rate.toNat = .ok r' ∧ r' ≤ r) := by
  have hzero : rate = 0 ↔ rate.toNat = 0 := BitVec.toNat_inj.symm
  refine ⟨fun why => ?_, fun hrate hsum => ?_⟩
  · rw [hzero]
    exact divisor_eq_error_iff clock.isLt
  · have hpos : 0 < rate.toNat := Nat.pos_of_ne_zero fun h => hrate (hzero.mpr h)
    have hround := round_eq_quotient clock.toNat hpos
    have hfits : quotient clock.toNat rate.toNat < Checked.limit :=
      Nat.lt_of_le_of_lt (Nat.div_le_self _ _) hsum
    refine ⟨quotient clock.toNat rate.toNat, divisor_eq hpos hsum, hfits,
      abs_quotient_mul_sub_le clock.toNat hpos, fun z => ?_, hround.symm, fun slower hslower => ?_⟩
    · have hnearest := round_le (clock.toNat / rate.toNat : ℚ) z
      rwa [hround, Int.cast_natCast] at hnearest
    · have hsum' : slower.toNat + rate.toNat / 2 < Checked.limit :=
        Nat.lt_of_le_of_lt (Nat.add_le_add_right hslower _) hsum
      exact ⟨_, divisor_eq hpos hsum', quotient_mono hslower _⟩

/-- The console's rate on a bus at 36 MHz: the quotient is halfway between two integers,
and the divisor is the larger one. -/
theorem divisor_nearest_halfway :
    (115200 : Word) ≠ 0 ∧
    (36000000 : Word).toNat + (115200 : Word).toNat / 2 < Checked.limit ∧
    divisor 36000000 115200 = .ok 313 ∧
    ∀ z : ℤ, |(36000000 / 115200 : ℚ) - 313| ≤ |(36000000 / 115200 : ℚ) - z| := by
  have hrate : (115200 : Word) ≠ 0 := by decide
  have hsum : (36000000 : Word).toNat + (115200 : Word).toNat / 2 < Checked.limit := by decide
  have hdivisor : divisor 36000000 115200 = .ok 313 := rfl
  obtain ⟨r, hr, -, -, hnearest, -⟩ := (divisor_nearest 36000000 115200).2 hrate hsum
  obtain rfl : 313 = r := Except.ok.inj (hdivisor.symm.trans hr)
  exact ⟨hrate, hsum, hdivisor, hnearest⟩

end BringUp.Hardware.Console
