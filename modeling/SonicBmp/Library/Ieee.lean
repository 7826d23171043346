/- module: SonicBmp/Library/Ieee
   digest: Binary interchange formats: the fields of a word, the rational it denotes, its floor. -/

import Mathlib.Algebra.Order.Floor.Semifield
import Mathlib.Data.Rat.Floor
import Mathlib.Tactic.FieldSimp

set_option autoImplicit false
set_option relaxedAutoImplicit false

namespace SonicBmp.Library.Ieee

/-- The widths of the exponent and of the fraction; the sign is one bit above them. -/
structure Format where
  expWidth : Nat
  fracWidth : Nat

namespace Format

variable (f : Format)

def bias : Nat := 2 ^ (f.expWidth - 1) - 1

def sign (word : Nat) : Nat := word / 2 ^ (f.expWidth + f.fracWidth)

def exponent (word : Nat) : Nat := word / 2 ^ f.fracWidth % 2 ^ f.expWidth

def fraction (word : Nat) : Nat := word % 2 ^ f.fracWidth

/-- The fraction, with the implied bit unless the number is subnormal. -/
def significand (word : Nat) : Nat :=
  if f.exponent word = 0 then f.fraction word else f.fraction word + 2 ^ f.fracWidth

/-- What a word denotes whose sign bit is clear and whose exponent is not all ones. -/
def magnitude (word : Nat) : ℚ :=
  f.significand word *
    2 ^ ((max 1 (f.exponent word) : ℤ) - (f.bias : ℤ) - (f.fracWidth : ℤ))

theorem significand_of_normal {word : Nat} (normal : f.exponent word ≠ 0) :
    f.significand word = f.fraction word + 2 ^ f.fracWidth := if_neg normal

theorem significand_lt (word : Nat) : f.significand word < 2 ^ (f.fracWidth + 1) := by
  have small : f.fraction word < 2 ^ f.fracWidth := Nat.mod_lt _ (Nat.two_pow_pos _)
  rw [pow_succ]
  unfold significand
  split <;> omega

/-- The value as a quotient of naturals. -/
theorem magnitude_eq_div (word : Nat) :
    f.magnitude word =
      ((f.significand word * 2 ^ max 1 (f.exponent word) : Nat) : ℚ) /
        ((2 ^ (f.bias + f.fracWidth) : Nat) : ℚ) := by
  have two : (2 : ℚ) ≠ 0 := by norm_num
  have top : (max 1 (f.exponent word) : ℤ) = ((max 1 (f.exponent word) : Nat) : ℤ) := by
    rw [Nat.cast_max, Nat.cast_one]
  rw [magnitude, top, sub_sub, ← Nat.cast_add, zpow_sub₀ two, zpow_natCast, zpow_natCast]
  push_cast
  exact mul_div_assoc' _ _ _

theorem floor_magnitude (word : Nat) :
    ⌊f.magnitude word⌋₊ =
      f.significand word * 2 ^ max 1 (f.exponent word) / 2 ^ (f.bias + f.fracWidth) := by
  rw [magnitude_eq_div]
  exact Nat.floor_div_eq_div _ _

/-- Below the bias the value is less than one. -/
theorem floor_magnitude_small {word : Nat} (biased : 1 < f.bias) (small : f.exponent word < f.bias) :
    ⌊f.magnitude word⌋₊ = 0 := by
  rw [floor_magnitude, Nat.div_eq_zero_iff]
  right
  calc f.significand word * 2 ^ max 1 (f.exponent word)
      < 2 ^ (f.fracWidth + 1) * 2 ^ max 1 (f.exponent word) :=
        Nat.mul_lt_mul_of_pos_right (f.significand_lt word) (Nat.two_pow_pos _)
    _ = 2 ^ (f.fracWidth + 1 + max 1 (f.exponent word)) := (pow_add 2 _ _).symm
    _ ≤ 2 ^ (f.bias + f.fracWidth) := Nat.pow_le_pow_right (by decide) (by omega)

/-- From there on the floor is the significand, shifted right for as long as the exponent is
within the fraction. -/
theorem floor_magnitude_right {word : Nat} (biased : 1 ≤ f.bias) (least : f.bias ≤ f.exponent word)
    (within : f.exponent word ≤ f.bias + f.fracWidth) :
    ⌊f.magnitude word⌋₊ =
      (f.fraction word + 2 ^ f.fracWidth) / 2 ^ (f.bias + f.fracWidth - f.exponent word) := by
  have exponent : max 1 (f.exponent word) = f.exponent word := max_eq_right (biased.trans least)
  have scale : 2 ^ (f.bias + f.fracWidth) =
      2 ^ (f.bias + f.fracWidth - f.exponent word) * 2 ^ f.exponent word := by
    rw [← pow_add, Nat.sub_add_cancel within]
  rw [floor_magnitude, exponent, f.significand_of_normal (by omega), scale]
  exact Nat.mul_div_mul_right _ _ (Nat.two_pow_pos _)

/-- Beyond the fraction the value is a whole number. -/
theorem floor_magnitude_left {word : Nat} (biased : 1 ≤ f.bias)
    (beyond : f.bias + f.fracWidth ≤ f.exponent word) :
    ⌊f.magnitude word⌋₊ =
      (f.fraction word + 2 ^ f.fracWidth) * 2 ^ (f.exponent word - (f.bias + f.fracWidth)) := by
  have exponent : max 1 (f.exponent word) = f.exponent word := max_eq_right (by omega)
  have scale : 2 ^ f.exponent word =
      2 ^ (f.exponent word - (f.bias + f.fracWidth)) * 2 ^ (f.bias + f.fracWidth) := by
    rw [← pow_add, Nat.sub_add_cancel beyond]
  rw [floor_magnitude, exponent, f.significand_of_normal (by omega), scale, ← Nat.mul_assoc]
  exact Nat.mul_div_cancel _ (Nat.two_pow_pos _)

end Format

end SonicBmp.Library.Ieee
