/- module: SonicBmp/Library/CStrings
   digest: Character arrays of a fixed size: what is copied into them and the text they hold. -/

import Mathlib.Data.List.TakeWhile

set_option autoImplicit false
set_option relaxedAutoImplicit false

namespace SonicBmp.Library.CStrings

/-- `strcmp(a, b) >= 0`: the first is not before the second in the order of their characters. -/
def strcmpGe : List Char → List Char → Bool
  | _, [] => true
  | [], _ :: _ => false
  | a :: as, b :: bs => if a = b then strcmpGe as bs else b.toNat < a.toNat

/-- An array of `n` octets. -/
structure CArray (n : Nat) where
  bytes : List UInt8
  length_bytes : bytes.length = n
  deriving DecidableEq

namespace CArray

variable {n : Nat}

def zero (n : Nat) : CArray n := ⟨List.replicate n 0, List.length_replicate⟩

/-- Octets copied to an offset; what would go beyond the array is left out. -/
def put (a : CArray n) (k : Nat) (src : List UInt8) : CArray n where
  bytes := a.bytes.take k ++ (src.take (n - k) ++ a.bytes.drop (k + src.length))
  length_bytes := by
    simp only [List.length_append, List.length_take, List.length_drop, a.length_bytes]
    omega

/-- The text up to the first NUL, or to the end of the array. -/
def text (a : CArray n) : List UInt8 := a.bytes.takeWhile (· ≠ 0)

def strlen (a : CArray n) : Nat := a.text.length

/-- What `strncat` copies behind the text, when `room` characters may be appended. -/
def strncatBytes (room : Nat) (src : List UInt8) : List UInt8 := src.take room ++ [0]

/-- `strncat` with all that is left of the array as its bound. -/
def strncat (a : CArray n) (src : List UInt8) : CArray n :=
  a.put a.strlen (strncatBytes (n - a.strlen) src)

@[simp] theorem text_zero (n : Nat) : (zero n).text = [] := by
  cases n with
  | zero => rfl
  | succ n => simp [text, zero, List.replicate_succ]

theorem nul_not_mem_text (a : CArray n) : 0 ∉ a.text := by
  intro here
  simpa using List.mem_takeWhile_imp here

theorem strlen_le (a : CArray n) : a.strlen ≤ n := by
  have shorter := (List.takeWhile_prefix (l := a.bytes) (· ≠ 0)).length_le
  rw [a.length_bytes] at shorter
  exact shorter

theorem take_strlen (a : CArray n) : a.bytes.take a.strlen = a.text :=
  (List.prefix_iff_eq_take.mp (List.takeWhile_prefix _)).symm

/-- A text is read back if a NUL or the end of the array follows it. -/
theorem takeWhile_text {src rest : List UInt8} (apart : 0 ∉ src)
    (closed : rest = [] ∨ ∃ rest', rest = 0 :: rest') :
    (src ++ rest).takeWhile (· ≠ 0) = src := by
  have whole : ∀ b ∈ src, decide (b ≠ 0) = true := by
    intro b here
    exact decide_eq_true fun nul => apart (nul ▸ here)
  rw [List.takeWhile_append_of_pos whole]
  rcases closed with rfl | ⟨rest', rfl⟩
  · simp
  · simp

/-- Text copied to the start of a zeroed array. -/
theorem text_put_zero {src : List UInt8} (apart : 0 ∉ src) (fits : src.length ≤ n) :
    ((zero n).put 0 src).text = src := by
  have closed : ((zero n).bytes.drop (0 + src.length)) = [] ∨
      ∃ rest', ((zero n).bytes.drop (0 + src.length)) = 0 :: rest' := by
    rw [zero, List.drop_replicate]
    cases n - (0 + src.length) with
    | zero => exact Or.inl rfl
    | succ k => exact Or.inr ⟨_, List.replicate_succ⟩
  show (([] : List UInt8) ++ (src.take (n - 0) ++ _)).takeWhile _ = src
  rw [List.nil_append, List.take_of_length_le (by omega)]
  exact takeWhile_text apart closed

/-- `strncat` appends what fits. -/
theorem text_strncat (a : CArray n) {src : List UInt8} (apart : 0 ∉ src) :
    (a.strncat src).text = (a.text ++ src).take n := by
  have short := a.strlen_le
  have appended : (a.text ++ src).take n = a.text ++ src.take (n - a.strlen) := by
    rw [List.take_append, List.take_of_length_le (show a.text.length ≤ n from short)]
    rfl
  have apart' : 0 ∉ a.text ++ src.take (n - a.strlen) := by
    rw [List.mem_append, not_or]
    exact ⟨a.nul_not_mem_text, fun here => apart (List.mem_of_mem_take here)⟩
  show (a.bytes.take a.strlen ++ ((strncatBytes (n - a.strlen) src).take (n - a.strlen) ++ _)).takeWhile
    _ = _
  rw [a.take_strlen, appended, ← List.append_assoc]
  by_cases room : src.length < n - a.strlen
  · -- the NUL still has a place in the array
    have whole : (strncatBytes (n - a.strlen) src).take (n - a.strlen) = src ++ [0] := by
      rw [strncatBytes, List.take_of_length_le (by omega : src.length ≤ n - a.strlen),
        List.take_of_length_le (by rw [List.length_append, List.length_singleton]; omega)]
    rw [whole, List.take_of_length_le room.le, List.append_assoc, List.append_assoc,
      ← List.append_assoc a.text]
    rw [List.take_of_length_le room.le] at apart'
    exact takeWhile_text apart' (Or.inr ⟨_, rfl⟩)
  · have full : (strncatBytes (n - a.strlen) src).take (n - a.strlen) = src.take (n - a.strlen) := by
      rw [strncatBytes, List.take_append_of_le_length (by rw [List.length_take]; omega),
        List.take_take, Nat.min_self]
    have behind : a.bytes.drop (a.strlen + (strncatBytes (n - a.strlen) src).length) = [] := by
      refine List.drop_eq_nil_of_le ?_
      rw [a.length_bytes, strncatBytes, List.length_append, List.length_take, List.length_singleton]
      omega
    rw [full, behind]
    exact takeWhile_text apart' (Or.inl rfl)

end CArray

end SonicBmp.Library.CStrings
