/- module: SonicBmp/Library/Printing
   digest: Printed numbers, joined words, and unique splitting at a character outside a class. -/

import Mathlib.Data.List.Basic
import Mathlib.Tactic.IntervalCases

set_option autoImplicit false
set_option relaxedAutoImplicit false

namespace SonicBmp.Library.Printing

/-- A byte string used as text. -/
abbrev Text := List Char

def decimal (n : Nat) : Text := Nat.toDigits 10 n

def hex (n : Nat) : Text := Nat.toDigits 16 n

/-- The text left in a character array of `n` bytes by `strncpy`. -/
def strncpy (n : Nat) (text : Text) : Text := text.take n

def snprintf (n : Nat) (text : Text) : Text := text.take (n - 1)

/-- What `%s` prints of a string with a NUL in it. -/
def cString (text : Text) : Text := text.takeWhile (· ≠ '\x00')

def unwords (words : List Text) : Text := List.intercalate [' '] words

theorem decimal_isDigit {n : Nat} {c : Char} (h : c ∈ decimal n) : c.isDigit = true :=
  Nat.isDigit_of_mem_toDigits (by decide) (by decide) h

theorem decimal_isAlphanum {n : Nat} {c : Char} (h : c ∈ decimal n) : c.isAlphanum = true := by
  rw [Char.isAlphanum, decimal_isDigit h, Bool.or_true]

theorem not_mem_decimal {c : Char} (mark : c.isDigit = false) (n : Nat) : c ∉ decimal n := by
  intro here
  rw [decimal_isDigit here] at mark
  cases mark

theorem decimal_injective : Function.Injective decimal := by
  intro a b h
  have back (n : Nat) : Nat.ofDigitChars 10 (decimal n) 0 = n := Nat.ofDigitChars_ten_toDigits
  rw [← back a, ← back b, h]

theorem isAlphanum_range {c : Char} (word : c.isAlphanum = true) : 48 ≤ c.toNat ∧ c.toNat ≤ 122 := by
  delta Char.isAlphanum Char.isAlpha Char.isUpper Char.isLower Char.isDigit at word
  simp only [Bool.or_eq_true, Bool.and_eq_true, decide_eq_true_eq, UInt32.le_iff_toNat_le] at word
  have value : c.toNat = c.val.toNat := rfl
  rw [value]
  rcases word with (⟨ge, le⟩ | ⟨ge, le⟩) | ⟨ge, le⟩ <;>
    exact ⟨le_trans (by decide) ge, le.trans (by decide)⟩

theorem hex_isAlphanum {n : Nat} {c : Char} (h : c ∈ hex n) : c.isAlphanum = true := by
  have digit (k : Nat) (hk : k < 16) : (Nat.digitChar k).isAlphanum = true := by
    interval_cases k <;> rfl
  induction n using Nat.strongRecOn with
  | ind n ih =>
    by_cases small : n < 16
    · have he : hex n = [n.digitChar] := Nat.toDigits_of_lt_base small
      rw [he, List.mem_singleton] at h
      exact h ▸ digit n small
    · have he : hex n = hex (n / 16) ++ [(n % 16).digitChar] :=
        Nat.toDigits_of_base_le (by decide) (by omega)
      rw [he, List.mem_append, List.mem_singleton] at h
      rcases h with h | h
      · exact ih (n / 16) (by omega) h
      · exact h ▸ digit (n % 16) (Nat.mod_lt n (by decide))

private theorem hex_last (n : Nat) :
    hex n = (if n < 16 then [] else hex (n / 16)) ++ [(n % 16).digitChar] := by
  split
  · rename_i small
    rw [Nat.mod_eq_of_lt small]
    exact Nat.toDigits_of_lt_base small
  · exact Nat.toDigits_of_base_le (by decide) (by omega)

theorem hex_ne_nil (n : Nat) : hex n ≠ [] := by
  rw [hex_last]
  simp

theorem hex_injective : Function.Injective hex := by
  have digit : ∀ i : Fin 16, ∀ j : Fin 16, i.val.digitChar = j.val.digitChar → i = j := by decide
  intro a
  induction a using Nat.strongRecOn with
  | ind a ih =>
    intro b h
    rw [hex_last a, hex_last b] at h
    obtain ⟨front, last⟩ := List.append_inj' h rfl
    have low : a % 16 = b % 16 := congrArg Fin.val (digit ⟨a % 16, Nat.mod_lt _ (by decide)⟩
      ⟨b % 16, Nat.mod_lt _ (by decide)⟩ (List.cons.inj last).1)
    split at front <;> split at front
    · omega
    · exact absurd front.symm (hex_ne_nil _)
    · exact absurd front (hex_ne_nil _)
    · have high := ih (a / 16) (by omega) front
      omega

/-- A run of characters of one class, closed by a character outside the class,
can be read off in only one way. -/
theorem run_split {α : Type} (p : α → Prop) {run run' rest rest' : List α} {stop stop' : α}
    (inside : ∀ x ∈ run, p x) (inside' : ∀ x ∈ run', p x) (out : ¬ p stop) (out' : ¬ p stop')
    (h : run ++ stop :: rest = run' ++ stop' :: rest') :
    run = run' ∧ stop = stop' ∧ rest = rest' := by
  induction run generalizing run' with
  | nil =>
    rcases run' with _ | ⟨y, tail⟩
    · simpa using h
    · have hy : stop = y := by simpa using (List.cons.inj h).1
      exact absurd (inside' y (by simp)) (hy ▸ out)
  | cons x run ih =>
    rcases run' with _ | ⟨y, tail⟩
    · have hx : x = stop' := by simpa using (List.cons.inj h).1
      exact absurd (inside x (by simp)) (hx ▸ out')
    · obtain ⟨hx, ht⟩ := List.cons.inj h
      have tails := ih (fun z hz => inside z (by simp [hz]))
        (fun z hz => inside' z (by simp [hz])) ht
      exact ⟨by rw [hx, tails.1], tails.2⟩

/-- What stands behind the last occurrence of an element can be read off, too. -/
theorem last_split {α : Type} {stop : α} {front front' last last' : List α} (apart : stop ∉ last)
    (apart' : stop ∉ last') :
    front ++ stop :: last = front' ++ stop :: last' ↔ front = front' ∧ last = last' := by
  constructor
  · intro same
    have turned : last.reverse ++ stop :: front.reverse =
        last'.reverse ++ stop :: front'.reverse := by
      simpa using congrArg List.reverse same
    obtain ⟨lasts, -, fronts⟩ := run_split (· ≠ stop)
      (fun x here => ne_of_mem_of_not_mem (List.mem_reverse.mp here) apart)
      (fun x here => ne_of_mem_of_not_mem (List.mem_reverse.mp here) apart') (by simp) (by simp)
      turned
    exact ⟨List.reverse_injective fronts, List.reverse_injective lasts⟩
  · rintro ⟨rfl, rfl⟩
    rfl

/-- A number is read back up to the first character that is no digit. -/
theorem decimal_split {n n' : Nat} {stop stop' : Char} {rest rest' : Text}
    (mark : stop.isDigit = false) (mark' : stop'.isDigit = false)
    (same : decimal n ++ stop :: rest = decimal n' ++ stop' :: rest') :
    n = n' ∧ stop = stop' ∧ rest = rest' := by
  obtain ⟨numbers, tails⟩ := run_split (fun c => c.isDigit = true) (fun _ => decimal_isDigit)
    (fun _ => decimal_isDigit) (Bool.not_eq_true _ ▸ mark) (Bool.not_eq_true _ ▸ mark') same
  exact ⟨decimal_injective numbers, tails⟩

/-- Two numbers with a colon between them can be read back. -/
theorem colonNumbers_inj {a b a' b' : Nat} :
    decimal a ++ ':' :: decimal b = decimal a' ++ ':' :: decimal b' ↔ a = a' ∧ b = b' := by
  constructor
  · intro same
    obtain ⟨first, -, second⟩ := decimal_split rfl rfl same
    exact ⟨first, decimal_injective second⟩
  · rintro ⟨rfl, rfl⟩
    rfl

theorem length_decimal_le {n k : Nat} (pos : 0 < k) (small : n < 10 ^ k) :
    (decimal n).length ≤ k := (Nat.length_toDigits_le_iff (by decide) pos).mpr small

theorem intercalate_cons (c : Char) (w : Text) (ws : List Text) :
    List.intercalate [c] (w :: ws) = w ++ ws.flatMap (fun v => c :: v) := by
  induction ws generalizing w with
  | nil => simp [List.intercalate]
  | cons v ws ih => rw [List.intercalate_cons_cons, ih]; simp

theorem unwords_cons (w : Text) (ws : List Text) :
    unwords (w :: ws) = w ++ ws.flatMap (fun v => ' ' :: v) := intercalate_cons ' ' w ws

/-- The last word has no blank behind it. -/
theorem unwords_concat (ws : List Text) (w : Text) :
    unwords (ws ++ [w]) = ws.flatMap (fun v => v ++ [' ']) ++ w := by
  induction ws with
  | nil => simp [unwords, List.intercalate]
  | cons v ws ih =>
    obtain ⟨u, us, split⟩ := List.exists_cons_of_ne_nil
      (List.append_ne_nil_of_right_ne_nil ws (List.cons_ne_nil w []))
    rw [List.flatMap_cons, List.append_assoc, ← ih, List.cons_append, split]
    exact List.intercalate_cons_cons

/-- Blank-separated words can be read back. -/
theorem unwords_injective_of_ne_nil {ws ws' : List Text} (apart : ∀ w ∈ ws, ' ' ∉ w)
    (apart' : ∀ w ∈ ws', ' ' ∉ w) (some_ : ws ≠ []) (some' : ws' ≠ [])
    (same : unwords ws = unwords ws') : ws = ws' := by
  have split := congrArg (List.splitOn ' ') same
  rwa [unwords, unwords, List.splitOn_intercalate ' ' apart some_,
    List.splitOn_intercalate ' ' apart' some'] at split

/-- If there are no empty ones, also from an empty list. -/
theorem unwords_injective {ws ws' : List Text} (apart : ∀ w ∈ ws, ' ' ∉ w) (shown : [] ∉ ws)
    (apart' : ∀ w ∈ ws', ' ' ∉ w) (shown' : [] ∉ ws') (same : unwords ws = unwords ws') :
    ws = ws' := by
  have unwords_ne_nil {w : Text} {ws : List Text} (shown : [] ∉ w :: ws) :
      unwords (w :: ws) ≠ [] := by
    rw [unwords_cons]
    intro empty
    exact shown (by rw [(List.append_eq_nil_iff.mp empty).1]; exact List.mem_cons_self)
  match ws, ws' with
  | [], [] => rfl
  | [], w :: ws => exact absurd same.symm (unwords_ne_nil shown')
  | w :: ws, [] => exact absurd same (unwords_ne_nil shown)
  | w :: ws, w' :: ws' =>
    exact unwords_injective_of_ne_nil apart apart' (List.cons_ne_nil _ _) (List.cons_ne_nil _ _) same

/-- So can words that each end in a blank, whether or not they are empty. -/
theorem blankEnded_injective {ws ws' : List Text} (apart : ∀ w ∈ ws, ' ' ∉ w)
    (apart' : ∀ w ∈ ws', ' ' ∉ w)
    (same : ws.flatMap (fun w => w ++ [' ']) = ws'.flatMap (fun w => w ++ [' '])) : ws = ws' := by
  have joined (ws : List Text) : ws.flatMap (fun w => w ++ [' ']) = unwords (ws ++ [[]]) := by
    rw [unwords_concat, List.append_nil]
  have last {ws : List Text} (apart : ∀ w ∈ ws, ' ' ∉ w) : ∀ w ∈ ws ++ [[]], ' ' ∉ w := by
    simpa [or_imp, forall_and] using apart
  rw [joined, joined] at same
  exact List.append_cancel_right
    (unwords_injective_of_ne_nil (last apart) (last apart') (by simp) (by simp) same)

/-- Items with a comma and a blank between them. -/
def commas (items : List Text) : Text := List.intercalate ", ".toList items

theorem commas_cons (w : Text) (ws : List Text) :
    commas (w :: ws) = w ++ ws.flatMap (fun v => ", ".toList ++ v) := by
  induction ws generalizing w with
  | nil => simp [commas, List.intercalate]
  | cons v ws ih =>
    rw [List.flatMap_cons, List.append_assoc, ← ih, ← List.append_assoc]
    exact List.intercalate_cons_cons

theorem commas_concat {ws : List Text} (some_ : ws ≠ []) (w : Text) :
    commas (ws ++ [w]) = commas ws ++ (", ".toList ++ w) := by
  obtain ⟨v, vs, rfl⟩ := List.exists_cons_of_ne_nil some_
  rw [List.cons_append, commas_cons, commas_cons, List.flatMap_append, List.flatMap_singleton,
    List.append_assoc]

theorem commas_injective {ws ws' : List Text} (apart : ∀ w ∈ ws, ',' ∉ w)
    (apart' : ∀ w ∈ ws', ',' ∉ w) (some_ : ws ≠ []) (some' : ws' ≠ [])
    (same : commas ws = commas ws') : ws = ws' := by
  obtain ⟨w, ws, rfl⟩ := List.exists_cons_of_ne_nil some_
  obtain ⟨w', ws', rfl⟩ := List.exists_cons_of_ne_nil some'
  -- the blank behind a comma is taken as the first character of the next item
  have single (w : Text) (ws : List Text) :
      commas (w :: ws) = List.intercalate [','] (w :: ws.map (' ' :: ·)) := by
    rw [commas_cons, intercalate_cons, List.flatMap_map]
    rfl
  have split {w : Text} {ws : List Text} (apart : ∀ v ∈ w :: ws, ',' ∉ v) :
      (commas (w :: ws)).splitOn ',' = w :: ws.map (' ' :: ·) := by
    rw [single]
    refine List.splitOn_intercalate ',' ?_ (List.cons_ne_nil _ _)
    intro v here
    rcases List.mem_cons.mp here with rfl | here
    · exact apart v List.mem_cons_self
    · obtain ⟨u, old, rfl⟩ := List.mem_map.mp here
      simpa using apart u (List.mem_cons_of_mem w old)
  have pieces := congrArg (List.splitOn ',') same
  rw [split apart, split apart'] at pieces
  obtain ⟨first, rest⟩ := List.cons.inj pieces
  rw [first, List.map_injective_iff.mpr (List.cons_injective) rest]

end SonicBmp.Library.Printing
