/- module: SonicBmp/Library/Batch
   digest: Batches of numbered rows of which a buffer keeps the first ones, and the gaps this leaves. -/

import Mathlib.Data.List.Range
import SonicBmp.Library.Printing

set_option autoImplicit false
set_option relaxedAutoImplicit false

namespace SonicBmp.Library.Batch

open SonicBmp.Library.Printing

/-! One batch. -/

/-- The rows of a batch one after the other: each is counted in full, cut to the row
buffer, and left out once the count has reached the limit. -/
def catRows (rowBuf limit : Nat) : Nat → List Text → Text
  | _, [] => []
  | used, row :: rows =>
    let used := used + row.length
    (if used < limit then snprintf rowBuf row else []) ++ catRows rowBuf limit used rows

/-- How many rows are not left out. -/
def kept (limit : Nat) : Nat → List Text → Nat
  | _, [] => 0
  | used, row :: rows =>
    if used + row.length < limit then kept limit (used + row.length) rows + 1 else 0

theorem kept_le_length (limit used : Nat) (rows : List Text) :
    kept limit used rows ≤ rows.length := by
  induction rows generalizing used with
  | nil => exact le_rfl
  | cons row rows ih =>
    rw [kept]
    split
    · exact Nat.succ_le_succ (ih _)
    · exact Nat.zero_le _

theorem catRows_of_full (rowBuf : Nat) {limit used : Nat} (full : limit ≤ used)
    (rows : List Text) : catRows rowBuf limit used rows = [] := by
  induction rows generalizing used with
  | nil => rfl
  | cons row rows ih =>
    rw [catRows]
    simp only [if_neg (show ¬ used + row.length < limit by omega), List.nil_append]
    exact ih (by omega)

/-- Since the count never goes down, it is the last rows that are left out. -/
theorem catRows_eq_take (rowBuf limit used : Nat) (rows : List Text) :
    catRows rowBuf limit used rows =
      (rows.take (kept limit used rows)).flatMap (snprintf rowBuf) := by
  induction rows generalizing used with
  | nil => rfl
  | cons row rows ih =>
    rw [catRows, kept]
    by_cases room : used + row.length < limit
    · simp only [if_pos room, List.take_succ_cons, List.flatMap_cons, ih]
    · simp only [if_neg room, List.nil_append, List.take_zero, List.flatMap_nil]
      exact catRows_of_full rowBuf (Nat.not_lt.mp room) rows

/-- What is kept is no longer than what was counted, and stays below the limit. -/
theorem length_catRows_le (rowBuf limit used : Nat) (rows : List Text) :
    (catRows rowBuf limit used rows).length ≤ (rows.map List.length).sum ∧
      (catRows rowBuf limit used rows).length ≤ limit - used := by
  induction rows generalizing used with
  | nil => simp [catRows]
  | cons row rows ih =>
    have cut : (snprintf rowBuf row).length ≤ row.length := List.length_take_le' _ _
    obtain ⟨counted, below⟩ := ih (used + row.length)
    rw [catRows]
    by_cases room : used + row.length < limit
    · simp only [if_pos room, List.length_append, List.map_cons, List.sum_cons]
      omega
    · simp only [if_neg room, List.nil_append, List.map_cons, List.sum_cons]
      omega

/-! Many batches, numbered through. -/

/-- The numbers of what is kept, for batches given by how many rows they have and how many
of these are kept: the rows left out are numbered as well. -/
def keptNumbers : Nat → List (Nat × Nat) → List Nat
  | _, [] => []
  | next, (rows, kept) :: counts => List.range' next kept ++ keptNumbers (next + rows) counts

theorem le_of_mem_keptNumbers {next number : Nat} {counts : List (Nat × Nat)}
    (here : number ∈ keptNumbers next counts) : next ≤ number := by
  induction counts generalizing next with
  | nil => cases here
  | cons count counts ih =>
    rcases List.mem_append.mp here with now | later
    · exact (List.mem_range'_1.mp now).1
    · exact (Nat.le_add_right _ _).trans (ih later)

theorem keptNumbers_eq_nil (next : Nat) (counts : List (Nat × Nat)) :
    keptNumbers next counts = [] ↔ ∀ count ∈ counts, count.2 = 0 := by
  induction counts generalizing next with
  | nil => simp [keptNumbers]
  | cons count counts ih => simp [keptNumbers, ih]

/-- The numbers kept have no gap when nothing is kept after something was left out. -/
theorem keptNumbers_eq_range_iff (next : Nat) {counts : List (Nat × Nat)}
    (bounded : ∀ count ∈ counts, count.2 ≤ count.1) :
    keptNumbers next counts = List.range' next (keptNumbers next counts).length ↔
      counts.Pairwise fun earlier later => later.2 = 0 ∨ earlier.2 = earlier.1 := by
  induction counts generalizing next with
  | nil => simp [keptNumbers]
  | cons count counts ih =>
    obtain ⟨rows, kept⟩ := count
    have shorter : kept ≤ rows := bounded (rows, kept) List.mem_cons_self
    have rest := @ih (next + rows) fun count here => bounded count (List.mem_cons_of_mem _ here)
    rw [keptNumbers, List.length_append, List.length_range', ← List.range'_append_1,
      List.append_cancel_left_eq, List.pairwise_cons]
    by_cases whole : kept = rows
    · subst whole
      simp [rest]
    · -- the next number kept would be too large
      have nothing : keptNumbers (next + rows) counts =
          List.range' (next + kept) (keptNumbers (next + rows) counts).length ↔
            keptNumbers (next + rows) counts = [] := by
        constructor
        · intro range
          by_contra some_number
          have first : next + kept ∈ keptNumbers (next + rows) counts := by
            rw [range, List.mem_range'_1]
            exact ⟨le_rfl, Nat.lt_add_of_pos_right (List.length_pos_iff.mpr some_number)⟩
          have := le_of_mem_keptNumbers first
          omega
        · intro none_left
          rw [none_left]
          rfl
      rw [nothing, keptNumbers_eq_nil]
      simp only [whole, or_false]
      refine ⟨fun zero => ⟨zero, ?_⟩, fun both => both.1⟩
      exact List.pairwise_of_forall_mem_list fun _ _ later here => Or.inl (zero later here)

end SonicBmp.Library.Batch
