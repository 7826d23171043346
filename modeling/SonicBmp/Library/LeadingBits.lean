/- module: SonicBmp/Library/LeadingBits
   digest: The leading bits of octet strings, and the greatest string that agrees in them. -/

import Mathlib.Data.Nat.Bitwise
import SonicBmp.Library.Memory

set_option autoImplicit false
set_option relaxedAutoImplicit false

namespace SonicBmp.Library.LeadingBits

open SonicBmp.Library.Memory

/-! Octet strings as numbers. -/

theorem bigEndian_eq_leValue (bs : List UInt8) : bigEndian bs = leValue bs.reverse := by
  have folded (acc : Nat) : bs.foldl (fun n b => 256 * n + b.toNat) acc =
      leValue bs.reverse + 256 ^ bs.length * acc := by
    induction bs generalizing acc with
    | nil => simp [leValue]
    | cons b bs ih =>
      rw [List.foldl_cons, ih, List.reverse_cons, leValue_append, List.length_reverse,
        List.length_cons, leValue, leValue, pow_succ]
      ring
  rw [bigEndian, folded, Nat.mul_zero, Nat.add_zero]

theorem bigEndian_append (a b : List UInt8) :
    bigEndian (a ++ b) = bigEndian a * 256 ^ b.length + bigEndian b := by
  rw [bigEndian_eq_leValue, bigEndian_eq_leValue, bigEndian_eq_leValue, List.reverse_append,
    leValue_append, List.length_reverse]
  ring

theorem bigEndian_lt (bs : List UInt8) : bigEndian bs < 256 ^ bs.length := by
  have small := leValue_lt bs.reverse
  rwa [← bigEndian_eq_leValue, List.length_reverse] at small

theorem bigEndian_reverse_leBytes (n value : Nat) :
    bigEndian (leBytes n value).reverse = value % 256 ^ n := by
  rw [bigEndian_eq_leValue, List.reverse_reverse, leValue_leBytes]

theorem pow_octets (w : Nat) : 256 ^ w = 2 ^ (8 * w) := by
  have octet : (256 : Nat) = 2 ^ 8 := by decide
  rw [octet, pow_mul]

theorem bigEndian_lt_two_pow (bs : List UInt8) : bigEndian bs < 2 ^ (8 * bs.length) := by
  rw [← pow_octets]
  exact bigEndian_lt bs

theorem bigEndian_cons (b : UInt8) (bs : List UInt8) :
    bigEndian (b :: bs) = b.toNat * 256 ^ bs.length + bigEndian bs := by
  have one : bigEndian [b] = b.toNat := by simp [bigEndian]
  rw [← List.singleton_append, bigEndian_append, one]

/-- Of equal length, different strings are different numbers. -/
theorem bigEndian_inj {a b : List UInt8} (length : a.length = b.length)
    (same : bigEndian a = bigEndian b) : a = b := by
  induction a generalizing b with
  | nil => exact (List.length_eq_zero_iff.mp length.symm).symm
  | cons x a ih =>
    cases b with
    | nil => cases length
    | cons y b =>
      have tails : a.length = b.length := Nat.succ.inj length
      rw [bigEndian_cons, bigEndian_cons, tails] at same
      have below := bigEndian_lt a
      have below' := bigEndian_lt b
      rw [tails] at below
      have heads : x.toNat = y.toNat := by
        have quotient := congrArg (· / 256 ^ b.length) same
        have pos : 0 < 256 ^ b.length := Nat.pow_pos (by decide)
        rw [Nat.mul_comm, Nat.mul_add_div pos, Nat.mul_comm, Nat.mul_add_div pos,
          Nat.div_eq_of_lt below, Nat.div_eq_of_lt below'] at quotient
        exact quotient
      rw [heads] at same
      rw [UInt8.toNat_inj.mp heads, ih tails (Nat.add_left_cancel same)]

theorem leValue_inj {a b : List UInt8} (length : a.length = b.length)
    (same : leValue a = leValue b) : a = b := by
  apply List.reverse_injective
  apply bigEndian_inj (by rw [List.length_reverse, List.length_reverse, length])
  rw [bigEndian_eq_leValue, bigEndian_eq_leValue, List.reverse_reverse, List.reverse_reverse, same]

theorem leValue_zeros {bs : List UInt8} (zero : ∀ b ∈ bs, b = 0) : leValue bs = 0 := by
  induction bs with
  | nil => rfl
  | cons b bs ih =>
    rw [leValue, zero b List.mem_cons_self, ih fun c here => zero c (List.mem_cons_of_mem _ here)]
    rfl

/-! Bits. -/

/-- Bit `i` of a string, the first being the highest of the first octet. -/
def bitAt (bs : List UInt8) (i : Nat) : Bool := (bs.getD (i / 8) 0).toNat.testBit (7 - i % 8)

/-- Two strings agree in their first `n` bits. -/
def AgreeBits (n : Nat) (a b : List UInt8) : Prop := ∀ i < n, bitAt a i = bitAt b i

instance (n : Nat) (a b : List UInt8) : Decidable (AgreeBits n a b) :=
  inferInstanceAs (Decidable (∀ i < n, bitAt a i = bitAt b i))

theorem bitAt_append_left {a : List UInt8} (b : List UInt8) {i : Nat} (here : i < 8 * a.length) :
    bitAt (a ++ b) i = bitAt a i := by
  have inside : i / 8 < a.length := by omega
  simp only [bitAt, List.getD_eq_getElem?_getD, List.getElem?_append_left inside]

theorem bitAt_append_right (a b : List UInt8) (i : Nat) :
    bitAt (a ++ b) (8 * a.length + i) = bitAt b i := by
  have place : (8 * a.length + i) / 8 = a.length + i / 8 := by omega
  have bit : (8 * a.length + i) % 8 = i % 8 := by omega
  simp only [bitAt, place, bit, List.getD_eq_getElem?_getD,
    List.getElem?_append_right (Nat.le_add_right _ _), Nat.add_sub_cancel_left]

/-- The bits of a string are those of its number, counted from the other end. -/
theorem bitAt_eq_testBit (bs : List UInt8) : ∀ i < 8 * bs.length,
    bitAt bs i = (bigEndian bs).testBit (8 * bs.length - 1 - i) := by
  induction bs with
  | nil =>
    intro i here
    exact absurd here (Nat.not_lt_zero i)
  | cons b bs ih =>
    intro i here
    rw [List.length_cons] at here ⊢
    have number : bigEndian (b :: bs) = 2 ^ (8 * bs.length) * b.toNat + bigEndian bs := by
      rw [bigEndian_cons, pow_octets, Nat.mul_comm]
    rw [number, Nat.testBit_two_pow_mul_add _ (bigEndian_lt_two_pow bs)]
    by_cases first : i < 8
    · have place : i / 8 = 0 := by omega
      have bit : 8 * (bs.length + 1) - 1 - i - 8 * bs.length = 7 - i % 8 := by omega
      rw [if_neg (by omega), bit, bitAt, place, List.getD_cons_zero]
    · obtain ⟨j, rfl⟩ : ∃ j, i = 8 + j := ⟨i - 8, by omega⟩
      have bit : 8 * (bs.length + 1) - 1 - (8 + j) = 8 * bs.length - 1 - j := by omega
      rw [if_pos (by omega), bit, ← ih j (by omega)]
      exact bitAt_append_right [b] bs j

/-- Agreement in the leading bits is equality of the numbers they write. -/
theorem agreeBits_iff {n : Nat} {a b : List UInt8} (length : a.length = b.length)
    (within : n ≤ 8 * a.length) :
    AgreeBits n a b ↔
      bigEndian a / 2 ^ (8 * a.length - n) = bigEndian b / 2 ^ (8 * a.length - n) := by
  constructor
  · intro agree
    apply Nat.eq_of_testBit_eq
    intro j
    rw [Nat.testBit_div_two_pow, Nat.testBit_div_two_pow]
    by_cases low : j < n
    · have bit : 8 * a.length - 1 - (n - 1 - j) = 8 * a.length - n + j := by omega
      have same := agree (n - 1 - j) (by omega)
      rw [bitAt_eq_testBit a _ (by omega), bitAt_eq_testBit b _ (by omega), ← length, bit] at same
      rwa [Nat.add_comm]
    · have above {bs : List UInt8} (width : bs.length = a.length) :
          (bigEndian bs).testBit (j + (8 * a.length - n)) = false := by
        refine Nat.testBit_lt_two_pow ((bigEndian_lt_two_pow bs).trans_le ?_)
        exact Nat.pow_le_pow_right (by decide) (by omega)
      rw [above rfl, above length.symm]
  · intro quotient i here
    have bits := congrArg (fun q => Nat.testBit q (n - 1 - i)) quotient
    have bit : n - 1 - i + (8 * a.length - n) = 8 * a.length - 1 - i := by omega
    simp only [Nat.testBit_div_two_pow, bit] at bits
    rw [bitAt_eq_testBit a i (by omega), bitAt_eq_testBit b i (by omega), ← length]
    exact bits

theorem agreeBits_append_left {n : Nat} {a a' : List UInt8} (length : a.length = a'.length)
    (within : n ≤ 8 * a.length) (b b' : List UInt8) :
    AgreeBits n (a ++ b) (a' ++ b') ↔ AgreeBits n a a' := by
  refine forall₂_congr fun i here => ?_
  rw [bitAt_append_left b (by omega), bitAt_append_left b' (by omega)]

/-- All bits of a first part and some behind it. -/
theorem agreeBits_append {n : Nat} {a a' : List UInt8} (length : a.length = a'.length)
    (b b' : List UInt8) :
    AgreeBits (8 * a.length + n) (a ++ b) (a' ++ b') ↔ a = a' ∧ AgreeBits n b b' := by
  constructor
  · intro agree
    constructor
    · have whole : AgreeBits (8 * a.length) (a ++ b) (a' ++ b') :=
        fun i here => agree i (Nat.lt_add_right n here)
      rw [agreeBits_append_left length le_rfl, agreeBits_iff length le_rfl, Nat.sub_self, pow_zero,
        Nat.div_one, Nat.div_one] at whole
      exact bigEndian_inj length whole
    · intro i here
      have same := agree (8 * a.length + i) (Nat.add_lt_add_left here _)
      rw [bitAt_append_right] at same
      rw [same, length, bitAt_append_right]
  · rintro ⟨rfl, agree⟩ i here
    by_cases first : i < 8 * a.length
    · rw [bitAt_append_left b first, bitAt_append_left b' first]
    · obtain ⟨j, rfl⟩ : ∃ j, i = 8 * a.length + j := ⟨i - 8 * a.length, by omega⟩
      rw [bitAt_append_right, bitAt_append_right]
      exact agree j (by omega)

/-! The greatest string. -/

/-- `last` is the greatest string of its length that agrees with `bs` in the first `n`
bits. -/
structure Greatest (n : Nat) (bs last : List UInt8) : Prop where
  length : last.length = bs.length
  agrees : AgreeBits n bs last
  bound : ∀ other, other.length = bs.length → AgreeBits n bs other →
    bigEndian other ≤ bigEndian last

theorem Greatest.unique {n : Nat} {bs last last' : List UInt8} (one : Greatest n bs last)
    (two : Greatest n bs last') : last = last' := by
  refine bigEndian_inj (one.length.trans two.length.symm) (le_antisymm ?_ ?_)
  · exact two.bound last one.length one.agrees
  · exact one.bound last' two.length two.agrees

theorem greatest_self {n : Nat} {bs : List UInt8} (all : n = 8 * bs.length) : Greatest n bs bs where
  length := rfl
  agrees := fun _ _ => rfl
  bound := by
    intro other length agree
    rw [all, agreeBits_iff length.symm le_rfl, Nat.sub_self, pow_zero, Nat.div_one,
      Nat.div_one] at agree
    exact agree.ge

theorem or_ones (x k : Nat) : x ||| (2 ^ k - 1) = 2 ^ k * (x / 2 ^ k) + (2 ^ k - 1) := by
  have pos := Nat.two_pow_pos k
  apply Nat.eq_of_testBit_eq
  intro j
  rw [Nat.testBit_or, Nat.testBit_two_pow_sub_one, Nat.testBit_two_pow_mul_add _ (by omega),
    Nat.testBit_two_pow_sub_one, Nat.testBit_div_two_pow]
  by_cases low : j < k
  · simp [low]
  · simp [low, Nat.sub_add_cancel (not_lt.mp low)]

/-- All other bits are set with an or. -/
theorem greatest_or_ones {n w : Nat} {bs : List UInt8} (length : bs.length = w)
    (within : n ≤ 8 * w) :
    Greatest n bs (leBytes w (bigEndian bs ||| (2 ^ (8 * w - n) - 1))).reverse := by
  subst length
  have pos := Nat.two_pow_pos (8 * bs.length - n)
  have below := bigEndian_lt_two_pow bs
  have width : (leBytes bs.length (bigEndian bs ||| (2 ^ (8 * bs.length - n) - 1))).reverse.length =
      bs.length := by
    rw [List.length_reverse, length_leBytes]
  have number : bigEndian
      (leBytes bs.length (bigEndian bs ||| (2 ^ (8 * bs.length - n) - 1))).reverse =
        2 ^ (8 * bs.length - n) * (bigEndian bs / 2 ^ (8 * bs.length - n)) +
          (2 ^ (8 * bs.length - n) - 1) := by
    rw [bigEndian_reverse_leBytes, pow_octets, Nat.mod_eq_of_lt, or_ones]
    refine Nat.or_lt_two_pow below ?_
    have less : 2 ^ (8 * bs.length - n) ≤ 2 ^ (8 * bs.length) :=
      Nat.pow_le_pow_right (by decide) (Nat.sub_le _ _)
    omega
  refine ⟨width, ?_, ?_⟩
  · rw [agreeBits_iff width.symm within, number, Nat.mul_add_div pos,
      Nat.div_eq_of_lt (Nat.sub_lt pos Nat.one_pos), Nat.add_zero]
  · intro other otherWidth agree
    rw [agreeBits_iff otherWidth.symm within] at agree
    have split := Nat.div_add_mod (bigEndian other) (2 ^ (8 * bs.length - n))
    have rest := Nat.mod_lt (bigEndian other) pos
    rw [number, agree]
    omega

private theorem exists_parts {other a b : List UInt8} (width : other.length = (a ++ b).length) :
    ∃ head tail, other = head ++ tail ∧ head.length = a.length ∧ tail.length = b.length := by
  rw [List.length_append] at width
  refine ⟨other.take a.length, other.drop a.length, (List.take_append_drop _ _).symm, ?_, ?_⟩
  · rw [List.length_take]
    omega
  · rw [List.length_drop]
    omega

/-- The bits end in the first part: the rest is all ones. -/
theorem Greatest.append_ones {n : Nat} {a b last ones : List UInt8} (within : n ≤ 8 * a.length)
    (first : Greatest n a last) (length : ones.length = b.length)
    (full : bigEndian ones = 256 ^ b.length - 1) : Greatest n (a ++ b) (last ++ ones) where
  length := by rw [List.length_append, List.length_append, first.length, length]
  agrees := (agreeBits_append_left first.length.symm within b ones).mpr first.agrees
  bound := by
    intro other width agree
    obtain ⟨head, tail, rfl, heads, tails⟩ := exists_parts width
    rw [agreeBits_append_left heads.symm within] at agree
    have most := first.bound head heads agree
    have below := bigEndian_lt tail
    rw [tails] at below
    rw [bigEndian_append, bigEndian_append, tails, length, full]
    have scaled := Nat.mul_le_mul_right (256 ^ b.length) most
    omega

/-- The bits go beyond the first part, which stays. -/
theorem Greatest.append {n : Nat} {b last : List UInt8} (a : List UInt8)
    (second : Greatest n b last) : Greatest (8 * a.length + n) (a ++ b) (a ++ last) where
  length := by rw [List.length_append, List.length_append, second.length]
  agrees := (agreeBits_append rfl b last).mpr ⟨rfl, second.agrees⟩
  bound := by
    intro other width agree
    obtain ⟨head, tail, rfl, heads, tails⟩ := exists_parts width
    obtain ⟨rfl, behind⟩ := (agreeBits_append heads.symm b tail).mp agree
    have most := second.bound tail tails behind
    rw [bigEndian_append, bigEndian_append, tails, second.length]
    omega

end SonicBmp.Library.LeadingBits
