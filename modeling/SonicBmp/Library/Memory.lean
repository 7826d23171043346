/- module: SonicBmp/Library/Memory
   digest: Byte memory, big-endian fields, and placement of a byte string at an address. -/

import Mathlib.Data.List.Basic
import Mathlib.Data.List.GetD
import Mathlib.Tactic.Ring

set_option autoImplicit false
set_option relaxedAutoImplicit false

namespace SonicBmp.Library.Memory

/-- Memory as a program can read it: every address holds some byte, whether or
not the program was entitled to read it. -/
abbrev Mem := Nat → UInt8

/-- The `n` bytes that start at address `p`. -/
def readBytes (m : Mem) : Nat → Nat → List UInt8
  | _, 0 => []
  | p, n + 1 => m p :: readBytes m (p + 1) n

def Holds (m : Mem) (p : Nat) (bs : List UInt8) : Prop :=
  readBytes m p bs.length = bs

/-- Overwrite the bytes at `p`, leaving every other address alone. -/
def writeBytes (m : Mem) (p : Nat) (bs : List UInt8) : Mem :=
  fun i => if p ≤ i ∧ i < p + bs.length then bs.getD (i - p) 0 else m i

@[simp] theorem length_readBytes (m : Mem) (p n : Nat) : (readBytes m p n).length = n := by
  induction n generalizing p with
  | zero => rfl
  | succ n ih => simp [readBytes, ih]

theorem readBytes_add (m : Mem) (p a b : Nat) :
    readBytes m p (a + b) = readBytes m p a ++ readBytes m (p + a) b := by
  induction a generalizing p with
  | zero => simp [readBytes]
  | succ a ih =>
    have hb : a + 1 + b = (a + b) + 1 := by omega
    have hp : p + 1 + a = p + (a + 1) := by omega
    rw [hb]
    simp only [readBytes, List.cons_append, List.cons.injEq, true_and]
    rw [ih, hp]

theorem readBytes_congr {m m' : Mem} {p n : Nat}
    (same : ∀ i, p ≤ i → i < p + n → m i = m' i) : readBytes m p n = readBytes m' p n := by
  induction n generalizing p with
  | zero => rfl
  | succ n ih =>
    simp only [readBytes]
    rw [same p le_rfl (by omega), ih (fun i hi hn => same i (by omega) (by omega))]

@[simp] theorem holds_nil (m : Mem) (p : Nat) : Holds m p [] := rfl

@[simp] theorem holds_cons (m : Mem) (p : Nat) (b : UInt8) (bs : List UInt8) :
    Holds m p (b :: bs) ↔ m p = b ∧ Holds m (p + 1) bs := by
  simp [Holds, readBytes]

@[simp] theorem holds_append (m : Mem) (p : Nat) (a b : List UInt8) :
    Holds m p (a ++ b) ↔ Holds m p a ∧ Holds m (p + a.length) b := by
  induction a generalizing p with
  | nil => simp
  | cons x a ih =>
    have hp : p + 1 + a.length = p + (a.length + 1) := by omega
    simp only [List.cons_append, holds_cons, ih, List.length_cons, hp, and_assoc]

theorem Holds.read {m : Mem} {p : Nat} {bs : List UInt8} (h : Holds m p bs) :
    readBytes m p bs.length = bs := h

theorem Holds.read_of_length {m : Mem} {p n : Nat} {bs : List UInt8} (h : Holds m p bs)
    (hn : bs.length = n) : readBytes m p n = bs := hn ▸ h

/-! Reading back what was written, and reading around it. -/

theorem readBytes_writeBytes_before (m : Mem) (p n q : Nat) (bs : List UInt8)
    (h : q + n ≤ p) : readBytes (writeBytes m p bs) q n = readBytes m q n := by
  apply readBytes_congr
  intro i hi hn
  have : ¬ (p ≤ i ∧ i < p + bs.length) := by omega
  simp [writeBytes, this]

theorem readBytes_writeBytes_after (m : Mem) (p n q : Nat) (bs : List UInt8)
    (h : p + bs.length ≤ q) : readBytes (writeBytes m p bs) q n = readBytes m q n := by
  apply readBytes_congr
  intro i hi hn
  have : ¬ (p ≤ i ∧ i < p + bs.length) := by omega
  simp [writeBytes, this]

theorem readBytes_writeBytes_same (m : Mem) (p : Nat) (bs : List UInt8) :
    readBytes (writeBytes m p bs) p bs.length = bs := by
  induction bs generalizing m p with
  | nil => rfl
  | cons b bs ih =>
    have tail : readBytes (writeBytes m p (b :: bs)) (p + 1) bs.length =
        readBytes (writeBytes m (p + 1) bs) (p + 1) bs.length := by
      apply readBytes_congr
      intro i hi hn
      have inside : p ≤ i ∧ i < p + (b :: bs).length := by
        simp only [List.length_cons]
        omega
      have inside' : p + 1 ≤ i ∧ i < p + 1 + bs.length := ⟨hi, hn⟩
      have hi' : i - p = (i - (p + 1)) + 1 := by omega
      simp only [writeBytes, if_pos inside, if_pos inside', hi', List.getD_cons_succ]
    simp only [List.length_cons, readBytes]
    rw [tail, ih]
    simp [writeBytes]

theorem writeBytes_nil (m : Mem) (p : Nat) : writeBytes m p [] = m := by
  funext i
  have : ¬ (p ≤ i ∧ i < p + ([] : List UInt8).length) := by simp only [List.length_nil]; omega
  simp only [writeBytes, if_neg this]

/-- Writes to stretches that do not meet can be made in either order. -/
theorem writeBytes_comm (m : Mem) {p q : Nat} {a b : List UInt8}
    (apart : p + a.length ≤ q ∨ q + b.length ≤ p) :
    writeBytes (writeBytes m p a) q b = writeBytes (writeBytes m q b) p a := by
  funext i
  simp only [writeBytes]
  split_ifs <;> first | rfl | omega

theorem writeBytes_append (m : Mem) (p : Nat) (a b : List UInt8) :
    writeBytes m p (a ++ b) = writeBytes (writeBytes m p a) (p + a.length) b := by
  funext i
  simp only [writeBytes, List.length_append]
  by_cases second : p + a.length ≤ i ∧ i < p + a.length + b.length
  · have whole : p ≤ i ∧ i < p + (a.length + b.length) := by omega
    have shift : i - p - a.length = i - (p + a.length) := by omega
    rw [if_pos whole, if_pos second, List.getD_append_right _ _ _ _ (by omega), shift]
  · rw [if_neg second]
    by_cases first : p ≤ i ∧ i < p + a.length
    · have whole : p ≤ i ∧ i < p + (a.length + b.length) := by omega
      rw [if_pos whole, if_pos first, List.getD_append _ _ _ _ (by omega)]
    · rw [if_neg first, if_neg (by omega)]

theorem readBytes_writeBytes_append (m : Mem) (p n : Nat) (bs : List UInt8) :
    readBytes (writeBytes m (p + n) bs) p (n + bs.length) = readBytes m p n ++ bs := by
  rw [readBytes_add, readBytes_writeBytes_before _ _ _ _ _ le_rfl, readBytes_writeBytes_same]

theorem readBytes_split (m : Mem) (p : Nat) {n k : Nat} (h : n ≤ k) :
    readBytes m p k = readBytes m p n ++ readBytes m (p + n) (k - n) := by
  rw [← readBytes_add, Nat.add_sub_cancel' h]

/-- Bytes read in pieces of one width. -/
theorem readBytes_chunks (m : Mem) (p w k : Nat) :
    readBytes m p (k * w) = (List.range k).flatMap fun i => readBytes m (p + i * w) w := by
  induction k with
  | zero => rw [Nat.zero_mul]; rfl
  | succ k ih =>
    rw [List.range_succ, List.flatMap_append, ← ih, Nat.succ_mul, readBytes_add,
      List.flatMap_singleton]

/-- A stretch of bytes read within a longer one. -/
theorem readBytes_within (m : Mem) (p : Nat) {i n k : Nat} (inside : i + n ≤ k) :
    readBytes m (p + i) n = ((readBytes m p k).drop i).take n := by
  have whole : k = i + (n + (k - (i + n))) := by omega
  rw [whole, readBytes_add, readBytes_add]
  rw [List.drop_left' (by simp), List.take_left' (by simp)]

def memOf (bs : List UInt8) : Mem := writeBytes (fun _ => 0) 0 bs

theorem memOf_apply (bs : List UInt8) (i : Nat) : memOf bs i = bs.getD i 0 := by
  unfold memOf writeBytes
  split
  · rw [Nat.sub_zero]
  · rename_i outside
    rw [List.getD_eq_getElem?_getD, List.getElem?_eq_none (by omega), Option.getD_none]

theorem holds_memOf (bs : List UInt8) : Holds (memOf bs) 0 bs :=
  readBytes_writeBytes_same _ 0 bs

/-! Two places that look alike. -/

/-- The `n` bytes at two addresses, in two memories, are the same. -/
def SameBytes (n : Nat) (m : Mem) (p : Nat) (m' : Mem) (p' : Nat) : Prop :=
  readBytes m p n = readBytes m' p' n

theorem Holds.sameBytes {m m' : Mem} {p p' : Nat} {bs : List UInt8} (h : Holds m p bs)
    (h' : Holds m' p' bs) : SameBytes bs.length m p m' p' := h.trans h'.symm

section

variable {n p p' : Nat} {m m' : Mem}

theorem SameBytes.within (same : SameBytes n m p m' p') (i k : Nat) (inside : i + k ≤ n) :
    SameBytes k m (p + i) m' (p' + i) := by
  have whole : n = i + (k + (n - (i + k))) := by omega
  unfold SameBytes at same ⊢
  rw [whole, readBytes_add, readBytes_add, readBytes_add, readBytes_add] at same
  exact (List.append_inj (List.append_inj same (by simp)).2 (by simp)).1

theorem SameBytes.at (same : SameBytes n m p m' p') (i : Nat) (inside : i < n) :
    m (p + i) = m' (p' + i) := by
  have one := same.within i 1 (by omega)
  simpa [SameBytes, readBytes] using one

theorem Holds.octet {bs : List UInt8} (h : Holds m p bs) {i : Nat} (inside : i < bs.length) :
    m (p + i) = bs.getD i 0 := by
  have same := (h.sameBytes (holds_memOf bs)).at i inside
  rwa [Nat.zero_add, memOf_apply] at same

theorem count_readBytes_le (m : Mem) {p q k n : Nat} (starts : p ≤ q) (ends : q + k ≤ p + n)
    (byte : UInt8) : (readBytes m q k).count byte ≤ (readBytes m p n).count byte := by
  obtain ⟨i, rfl⟩ := Nat.exists_eq_add_of_le starts
  rw [readBytes_within m p (show i + k ≤ n by omega)]
  exact ((List.take_sublist _ _).trans (List.drop_sublist _ _)).count_le byte

end

/-! Big-endian fields: the value that a byte swap leaves in a little-endian
variable after the bytes were copied into it. -/

def u8 (m : Mem) (p : Nat) : Nat := (m p).toNat

def u16 (m : Mem) (p : Nat) : Nat := u8 m p * 256 + u8 m (p + 1)

def u24 (m : Mem) (p : Nat) : Nat := u8 m p * 65536 + u16 m (p + 1)

def u32 (m : Mem) (p : Nat) : Nat := u16 m p * 65536 + u16 m (p + 2)

def put8 (n : Nat) : List UInt8 := [UInt8.ofNat n]

def put16 (n : Nat) : List UInt8 := [UInt8.ofNat (n / 256), UInt8.ofNat n]

def put24 (n : Nat) : List UInt8 := put8 (n / 65536) ++ put16 n

def put32 (n : Nat) : List UInt8 := put16 (n / 65536) ++ put16 n

theorem u8_lt (m : Mem) (p : Nat) : u8 m p < 256 := (m p).toNat_lt

theorem u16_lt (m : Mem) (p : Nat) : u16 m p < 65536 := by
  have h0 := u8_lt m p
  have h1 := u8_lt m (p + 1)
  unfold u16
  omega

theorem u24_lt (m : Mem) (p : Nat) : u24 m p < 2 ^ 24 := by
  have := u8_lt m p
  have := u16_lt m (p + 1)
  unfold u24
  omega

theorem u32_lt (m : Mem) (p : Nat) : u32 m p < 2 ^ 32 := by
  have := u16_lt m p
  have := u16_lt m (p + 2)
  unfold u32
  omega

@[simp] theorem length_put8 (n : Nat) : (put8 n).length = 1 := rfl

@[simp] theorem length_put16 (n : Nat) : (put16 n).length = 2 := rfl

@[simp] theorem length_put24 (n : Nat) : (put24 n).length = 3 := rfl

@[simp] theorem length_put32 (n : Nat) : (put32 n).length = 4 := rfl

/-! A field gives its bytes back. -/

theorem holds_readBytes (m : Mem) (p n : Nat) : Holds m p (readBytes m p n) := by
  rw [Holds, length_readBytes]

theorem readBytes_one (m : Mem) (p : Nat) : readBytes m p 1 = put8 (u8 m p) := by
  simp [readBytes, put8, u8]

theorem readBytes_two (m : Mem) (p : Nat) : readBytes m p 2 = put16 (u16 m p) := by
  have lo := (m (p + 1)).toNat_lt
  have whole : ((m p).toNat * 256 + (m (p + 1)).toNat) / 256 = (m p).toNat := by omega
  have rest : UInt8.ofNat ((m p).toNat * 256 + (m (p + 1)).toNat) = m (p + 1) := by
    rw [← UInt8.toNat_inj, UInt8.toNat_ofNat']
    omega
  simp only [readBytes, put16, u16, u8, whole, rest, UInt8.ofNat_toNat]

theorem readBytes_four (m : Mem) (p : Nat) : readBytes m p 4 = put32 (u32 m p) := by
  have lo := u16_lt m (p + 2)
  have high : (u16 m p * 65536 + u16 m (p + 2)) / 65536 = u16 m p := by omega
  have low : put16 (u16 m p * 65536 + u16 m (p + 2)) = put16 (u16 m (p + 2)) := by
    simp only [put16, List.cons.injEq, ← UInt8.toNat_inj, UInt8.toNat_ofNat', and_true]
    omega
  calc readBytes m p 4 = readBytes m p 2 ++ readBytes m (p + 2) 2 := readBytes_add m p 2 2
    _ = put16 (u16 m p) ++ put16 (u16 m (p + 2)) := by rw [readBytes_two, readBytes_two]
    _ = put32 (u32 m p) := by rw [put32, u32, high, ← low]

/-- The number a byte string writes, its first byte the most significant. -/
def bigEndian (bs : List UInt8) : Nat := bs.foldl (fun n b => 256 * n + b.toNat) 0

theorem bigEndian_two (m : Mem) (p : Nat) : bigEndian (readBytes m p 2) = u16 m p := by
  simp only [bigEndian, readBytes, List.foldl_cons, List.foldl_nil, u16, u8]
  omega

theorem bigEndian_four (m : Mem) (p : Nat) : bigEndian (readBytes m p 4) = u32 m p := by
  simp only [bigEndian, readBytes, List.foldl_cons, List.foldl_nil, u32, u16, u8, Nat.add_assoc,
    Nat.reduceAdd]
  omega

theorem Holds.u8 {m : Mem} {p n : Nat} (h : Holds m p (put8 n)) (hn : n < 256) :
    u8 m p = n := by
  simp only [put8, holds_cons] at h
  simp only [Memory.u8, h.1, UInt8.toNat_ofNat']
  omega

theorem Holds.u16 {m : Mem} {p n : Nat} (h : Holds m p (put16 n)) (hn : n < 65536) :
    u16 m p = n := by
  simp only [put16, holds_cons] at h
  simp only [Memory.u16, Memory.u8, h.1, h.2.1, UInt8.toNat_ofNat']
  omega

private theorem u16_put16_mod {m : Mem} {p n : Nat} (h : Holds m p (put16 n)) :
    u16 m p = n % 65536 := by
  simp only [put16, holds_cons] at h
  simp only [Memory.u16, Memory.u8, h.1, h.2.1, UInt8.toNat_ofNat']
  omega

theorem Holds.u24 {m : Mem} {p n : Nat} (h : Holds m p (put24 n)) (hn : n < 16777216) :
    u24 m p = n := by
  simp only [put24, holds_append, length_put8] at h
  simp only [Memory.u24, h.1.u8 (by omega), u16_put16_mod h.2]
  omega

theorem Holds.u32 {m : Mem} {p n : Nat} (h : Holds m p (put32 n)) (hn : n < 4294967296) :
    u32 m p = n := by
  simp only [put32, holds_append, length_put16] at h
  simp only [Memory.u32, u16_put16_mod h.1, u16_put16_mod h.2]
  omega

section

variable {n p p' : Nat} {m m' : Mem}

theorem SameBytes.u8 (same : SameBytes n m p m' p') (i : Nat) (inside : i < n) :
    u8 m (p + i) = u8 m' (p' + i) := congrArg UInt8.toNat (same.at i inside)

theorem SameBytes.u16 (same : SameBytes n m p m' p') (i : Nat) (inside : i + 2 ≤ n) :
    u16 m (p + i) = u16 m' (p' + i) := by
  have hi := same.u8 i (by omega)
  have lo := same.u8 (i + 1) (by omega)
  rw [← Nat.add_assoc, ← Nat.add_assoc] at lo
  simp only [Memory.u16, hi, lo]

theorem SameBytes.u24 (same : SameBytes n m p m' p') (i : Nat) (inside : i + 3 ≤ n) :
    u24 m (p + i) = u24 m' (p' + i) := by
  have hi := same.u8 i (by omega)
  have lo := same.u16 (i + 1) (by omega)
  rw [← Nat.add_assoc, ← Nat.add_assoc] at lo
  simp only [Memory.u24, hi, lo]

theorem SameBytes.u32 (same : SameBytes n m p m' p') (i : Nat) (inside : i + 4 ≤ n) :
    u32 m (p + i) = u32 m' (p' + i) := by
  have hi := same.u16 i (by omega)
  have lo := same.u16 (i + 2) (by omega)
  rw [← Nat.add_assoc, ← Nat.add_assoc] at lo
  simp only [Memory.u32, hi, lo]

end

/-! Little-endian variables: what a copy of bytes in host order leaves in them. -/

def leBytes : Nat → Nat → List UInt8
  | 0, _ => []
  | n + 1, value => UInt8.ofNat value :: leBytes n (value / 256)

def leValue : List UInt8 → Nat
  | [] => 0
  | b :: bs => b.toNat + 256 * leValue bs

@[simp] theorem length_leBytes (n value : Nat) : (leBytes n value).length = n := by
  induction n generalizing value with
  | zero => rfl
  | succ n ih => rw [leBytes, List.length_cons, ih]

theorem leValue_leBytes (n value : Nat) : leValue (leBytes n value) = value % 256 ^ n := by
  induction n generalizing value with
  | zero => rw [pow_zero, Nat.mod_one]; rfl
  | succ n ih =>
    have split : value % 256 ^ (n + 1) = value % 256 + 256 * (value / 256 % 256 ^ n) := by
      rw [pow_succ', Nat.mod_mul]
    rw [leBytes, leValue, ih, UInt8.toNat_ofNat', split]

theorem leBytes_add (n k value : Nat) :
    leBytes (n + k) value = leBytes n value ++ leBytes k (value / 256 ^ n) := by
  induction n generalizing value with
  | zero => rw [Nat.zero_add, pow_zero, Nat.div_one]; rfl
  | succ n ih =>
    rw [Nat.succ_add, leBytes, ih, leBytes, List.cons_append, Nat.div_div_eq_div_mul,
      ← pow_succ']

theorem leValue_append (a b : List UInt8) :
    leValue (a ++ b) = leValue a + 256 ^ a.length * leValue b := by
  induction a with
  | nil => simp [leValue]
  | cons x a ih =>
    simp only [List.cons_append, leValue, ih, List.length_cons, pow_succ]
    ring

theorem leValue_lt (bs : List UInt8) : leValue bs < 256 ^ bs.length := by
  induction bs with
  | nil => decide
  | cons b bs ih =>
    have := b.toNat_lt
    rw [leValue, List.length_cons, pow_succ]
    omega

end SonicBmp.Library.Memory
