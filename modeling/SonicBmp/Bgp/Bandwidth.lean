/- module: SonicBmp/Bgp/Bandwidth
   digest: The bandwidths of a link in kilobits, against the IEEE numbers they are given as. -/

import SonicBmp.Bgp.LinkStateAttr
import SonicBmp.Library.Ieee

set_option autoImplicit false
set_option relaxedAutoImplicit false

namespace SonicBmp.Bgp.Bandwidth

open SonicBmp.Library.Ieee
open SonicBmp.Bgp.LinkStateAttr

/-- The format of the 32-bit numbers of the attribute. -/
def single : Format := ⟨8, 23⟩

/-- Whole octets per second in whole kilobits per second. -/
def kbps (v : ℚ) : Nat := ⌊(8 * ⌊v⌋₊ : ℚ) / 1000⌋₊

theorem kbps_eq (v : ℚ) : kbps v = 8 * ⌊v⌋₊ / 1000 := by
  have quotient := Nat.floor_div_natCast (8 * ⌊v⌋₊ : ℚ) 1000
  rw [kbps]
  exact_mod_cast quotient

theorem kbps_mono {v v' : ℚ} (le : v ≤ v') : kbps v ≤ kbps v' := by
  have floors := Nat.floor_mono le
  rw [kbps_eq, kbps_eq]
  omega

/-- A number that is not negative, not infinite, and few enough kilobits for 32 bits. -/
structure InRange (word : Nat) : Prop where
  pattern : word < 2 ^ 32
  positive : single.sign word = 0
  finite : single.exponent word < 255
  fits : kbps (single.magnitude word) < 2 ^ 32

/-! The steps of the conversion. -/

/-- How far `bits_value` is shifted, to the right up to the exponent 23 and then to the
left. A number below one is not shifted at all. -/
def shiftAmount (word : Nat) : Nat :=
  let exponent := single.exponent word - 127
  if exponent ≤ 23 then 23 - exponent else exponent - 23

/-- `bits_value` after the shift, without a bound on its width. -/
def shifted (word : Nat) : Nat :=
  let exponent := single.exponent word - 127
  let mantissa := single.fraction word + 2 ^ 23
  if exponent ≤ 23 then mantissa / 2 ^ (23 - exponent) else mantissa * 2 ^ (exponent - 23)

theorem floor_eq_shifted {word : Nat} (least : 127 ≤ single.exponent word) :
    ⌊single.magnitude word⌋₊ = shifted word := by
  have bias : single.bias = 127 := by decide
  have width : single.fracWidth = 23 := rfl
  unfold shifted
  dsimp only
  split
  · have amount : 127 + 23 - single.exponent word = 23 - (single.exponent word - 127) := by omega
    rw [single.floor_magnitude_right (by omega) (by omega) (by omega), bias, width, amount]
  · have amount : single.exponent word - (127 + 23) = single.exponent word - 127 - 23 := by omega
    rw [single.floor_magnitude_left (by omega) (by omega), bias, width, amount]

theorem floor_of_small {word : Nat} (small : single.exponent word < 127) :
    ⌊single.magnitude word⌋₊ = 0 := by
  have bias : single.bias = 127 := by decide
  exact single.floor_magnitude_small (by omega) (by omega)

theorem quotient_lt {word : Nat} (range : InRange word) (least : 127 ≤ single.exponent word) :
    8 * shifted word / 1000 < 2 ^ 32 := by
  rw [← floor_eq_shifted least, ← kbps_eq]
  exact range.fits

/-- The bound on the result is one on the shifted value. -/
theorem shifted_lt {word : Nat} (range : InRange word) (least : 127 ≤ single.exponent word) :
    shifted word < 2 ^ 39 := by
  have fits := quotient_lt range least
  omega

theorem shiftAmount_lt {word : Nat} (range : InRange word)
    (least : 127 ≤ single.exponent word) : shiftAmount word < 64 := by
  have small := shifted_lt range least
  have finite := range.finite
  unfold shifted at small
  unfold shiftAmount
  dsimp only at small ⊢
  split
  · omega
  · rename_i left
    rw [if_neg left] at small
    by_contra far
    have much : 2 ^ 39 ≤ 2 ^ (single.exponent word - 127 - 23) :=
      Nat.pow_le_pow_right (by decide) (by omega)
    have factor := Nat.le_mul_of_pos_left (2 ^ (single.exponent word - 127 - 23))
      (Nat.add_pos_right (single.fraction word) (Nat.two_pow_pos 23))
    omega

theorem wrap64_of_lt {n : Nat} (small : n < 2 ^ 63) : wrap64 n = n := by
  unfold wrap64
  refine Int.bmod_eq_of_le ?_ ?_ <;> omega

theorem magnitude_of_wrap {word : Nat} (range : InRange word) (least : 127 ≤ single.exponent word) :
    (if single.exponent word - 127 ≤ 23
      then (((single.fraction word + 2 ^ 23) / 2 ^ (23 - (single.exponent word - 127)) : Nat) : Int)
      else wrap64 ((single.fraction word + 2 ^ 23) *
        2 ^ ((single.exponent word - 127 - 23) % 64) : Nat)) = shifted word := by
  have small := shifted_lt range least
  have shift := shiftAmount_lt range least
  unfold shifted at small ⊢
  unfold shiftAmount at shift
  dsimp only at small shift ⊢
  split
  · rfl
  · rename_i left
    rw [if_neg left] at small shift
    rw [Nat.mod_eq_of_lt shift]
    exact wrap64_of_lt (by omega)

theorem word_lt {word : Nat} (range : InRange word) : word < 2 ^ 31 := by
  have positive : word / 2 ^ 31 = 0 := range.positive
  omega

/-- The conversion of a number of at least one. -/
theorem ieeeFloatToKbps_of_least {word : Nat} (range : InRange word)
    (least : 127 ≤ single.exponent word) :
    ieeeFloatToKbps word = 8 * shifted word / 1000 := by
  have small := shifted_lt range least
  have positive := word_lt range
  have finite := range.finite
  have exponent : word / 2 ^ 23 % 2 ^ 8 = single.exponent word := rfl
  have fraction : word % 2 ^ 23 = single.fraction word := rfl
  have product : wrap64 ((shifted word : Int) * 8) = (shifted word * 8 : Nat) := by
    exact_mod_cast wrap64_of_lt (n := shifted word * 8) (by omega)
  have nonzero : word % 2 ^ 31 ≠ 0 := by omega
  have quotient : ((shifted word * 8 : Nat) : Int).tdiv 1000 =
      ((8 * shifted word / 1000 : Nat) : Int) := by
    rw [Nat.mul_comm]
    exact (Int.ofNat_tdiv _ _).symm
  have fits := quotient_lt range least
  unfold ieeeFloatToKbps
  dsimp only
  rw [exponent, fraction, if_neg nonzero, if_neg (by omega), if_neg (by omega),
    magnitude_of_wrap range least, if_neg (by omega), product, quotient]
  omega

theorem ieeeFloatToKbps_of_small {word : Nat} (range : InRange word)
    (small : single.exponent word < 127) : ieeeFloatToKbps word = 0 := by
  have finite := range.finite
  have exponent : word / 2 ^ 23 % 2 ^ 8 = single.exponent word := rfl
  unfold ieeeFloatToKbps
  dsimp only
  rw [exponent, if_neg (by omega : ¬ single.exponent word = 255), if_pos small]
  exact ite_self 0

/-- What the conversion of a number is to do: give its whole kilobits, without a shift by the
width of the 64-bit value or more, and without a value beyond its 63 bits on the way. -/
structure Exact (word : Nat) : Prop where
  result : ieeeFloatToKbps word = kbps (single.magnitude word)
  shift : 127 ≤ single.exponent word → shiftAmount word < 64
  bits : 127 ≤ single.exponent word → shifted word < 2 ^ 63 ∧ shifted word * 8 < 2 ^ 63

theorem exact_of_inRange {word : Nat} (range : InRange word) : Exact word where
  result := by
    rw [kbps_eq]
    by_cases least : 127 ≤ single.exponent word
    · rw [ieeeFloatToKbps_of_least range least, floor_eq_shifted least]
    · rw [ieeeFloatToKbps_of_small range (by omega), floor_of_small (by omega)]
  shift := shiftAmount_lt range
  bits := by
    intro least
    have small := shifted_lt range least
    constructor <;> omega

/-- Every number in range is converted to its whole kilobits, and a greater one to no
fewer. -/
theorem kbps_exact_mono (word word' : Nat) (range : InRange word) (range' : InRange word') :
    Exact word ∧ (single.magnitude word ≤ single.magnitude word' →
      ieeeFloatToKbps word ≤ ieeeFloatToKbps word') := by
  refine ⟨exact_of_inRange range, ?_⟩
  intro le
  rw [(exact_of_inRange range).result, (exact_of_inRange range').result]
  exact kbps_mono le

private theorem thousand_inRange : InRange 0x447A0000 where
  pattern := by decide
  positive := by decide
  finite := by decide
  fits := by
    rw [kbps_eq, floor_eq_shifted (by decide)]
    decide

/-- A thousand octets per second are eight kilobits. -/
theorem kbps_exact_thousand :
    ieeeFloatToKbps 0x447A0000 = 8 ∧ Exact 0x447A0000 ∧
      (single.magnitude 0x447A0000 ≤ single.magnitude 0x447A0000 →
        ieeeFloatToKbps 0x447A0000 ≤ ieeeFloatToKbps 0x447A0000) :=
  ⟨by decide, kbps_exact_mono _ _ thousand_inRange thousand_inRange⟩

end SonicBmp.Bgp.Bandwidth
